import DeviceAuth.Proofs.Json.Grammar

/-! The tokens of a tree are just those that lead the reader of a text to that tree. -/
namespace DeviceAuth.Json

theorem intercalate_comma_concat (parts : List (List Token)) (last : List Token) :
    [Token.comma].intercalate (parts ++ [last]) = parts.flatMap (· ++ [.comma]) ++ last := by
  induction parts with
  | nil => simp
  | cons part rest ih =>
    obtain ⟨next, others, hrest⟩ : ∃ next others, rest ++ [last] = next :: others := by
      cases rest with
      | nil => exact ⟨last, [], rfl⟩
      | cons next others => exact ⟨next, others ++ [last], rfl⟩
    rw [List.cons_append, hrest, List.intercalate_cons_cons, ← hrest, ih, List.flatMap_cons]
    simp

namespace Reading

def memberTokens (m : RawString × Reading) : List Token := .string m.1 :: .colon :: m.2.toTokens

def itemsTokens (items : List Reading) : List Token :=
  (items.map toTokens).flatMap (· ++ [.comma])

def membersTokens (members : List (RawString × Reading)) : List Token :=
  (members.map memberTokens).flatMap (· ++ [.comma])

theorem toTokens_list_concat (items : List Reading) (v : Reading) (fault : Option Fault) :
    (list (items ++ [v]) fault).toTokens =
      .openList :: (itemsTokens items ++ v.toTokens ++ [.closeList]) := by
  rw [toTokens, List.map_append, List.map_singleton, intercalate_comma_concat, itemsTokens]

theorem toTokens_object_concat (members : List (RawString × Reading)) (m : RawString × Reading)
    (dangling : Option RawString) (fault : Option Fault) :
    (object (members ++ [m]) dangling fault).toTokens =
      .openObject :: (membersTokens members ++ memberTokens m ++ [.closeObject]) := by
  rw [toTokens, List.map_append, List.map_singleton, intercalate_comma_concat, membersTokens]
  rfl

end Reading

namespace Frame

open Reading (itemsTokens membersTokens)

/-- The tokens of a list or object up to the next value in it. -/
def toTokens : Frame → List Token
  | .list items => .openList :: itemsTokens items.reverse
  | .object members key =>
    .openObject :: (membersTokens members.reverse ++ [.string key, .colon])

def IsWhole : Frame → Prop
  | .list items => ∀ r ∈ items, r.IsWhole
  | .object members key =>
    key.fault = none ∧ (∀ m ∈ members, m.1.fault = none) ∧ ∀ m ∈ members, m.2.IsWhole

end Frame

namespace Reading.State

/-- The tokens up to the next value in the innermost of some frames. -/
def framesTokens : List Frame → List Token
  | [] => []
  | frame :: frames => framesTokens frames ++ frame.toTokens

/-- The tokens that lead to a state. -/
inductive Follows : List Token → State → Prop where
  | value {frames : List Frame} (h : ∀ f ∈ frames, f.IsWhole) :
      Follows (framesTokens frames) (.value frames)
  | firstItem {frames : List Frame} (h : ∀ f ∈ frames, f.IsWhole) :
      Follows (framesTokens frames ++ [.openList]) (.firstItem frames)
  | nextItem {items : List Reading} {frames : List Frame} (h : ∀ f ∈ frames, f.IsWhole)
      (hitems : ∀ r ∈ items, r.IsWhole) :
      Follows (framesTokens (.list items :: frames)) (.nextItem items frames)
  | firstKey {frames : List Frame} (h : ∀ f ∈ frames, f.IsWhole) :
      Follows (framesTokens frames ++ [.openObject]) (.firstKey frames)
  | nextKey {members : List (RawString × Reading)} {frames : List Frame}
      (h : ∀ f ∈ frames, f.IsWhole) (hkeys : ∀ m ∈ members, m.1.fault = none)
      (hmembers : ∀ m ∈ members, m.2.IsWhole) :
      Follows (framesTokens frames ++ .openObject :: membersTokens members.reverse)
        (.nextKey members frames)
  | colon {members : List (RawString × Reading)} {key : RawString} {frames : List Frame}
      (h : ∀ f ∈ frames, f.IsWhole) (hkey : key.fault = none)
      (hkeys : ∀ m ∈ members, m.1.fault = none) (hmembers : ∀ m ∈ members, m.2.IsWhole) :
      Follows (framesTokens frames ++ .openObject :: (membersTokens members.reverse ++
        [.string key])) (.colon members key frames)
  | after {v : Reading} {frame : Frame} {frames : List Frame} (h : ∀ f ∈ frames, f.IsWhole)
      (hframe : frame.IsWhole) (hv : v.IsWhole) :
      Follows (framesTokens (frame :: frames) ++ v.toTokens) (.after v frame frames)
  | done {v : Reading} (hv : v.IsWhole) : Follows v.toTokens (.done v)
  | trailing {v : Reading} (hv : v.IsWhole) (t : Token) (rest : List Token) :
      Follows (v.toTokens ++ t :: rest) (.trailing v)
  | halted {v : Reading} (hv : v.fault? ≠ none) (ts : List Token) : Follows ts (.halted v)

variable {v : Reading} {f : Fault} {frames : List Frame} {ts : List Token} {s : State}

theorem fault?_put (v : Reading) (fault : Option Fault) (frame : Frame) :
    (frame.put v fault).fault? = fault := by
  cases frame <;> rfl

theorem fault?_unwind (h : v.fault? = some f) : (unwind f v frames).fault? = some f := by
  induction frames generalizing v with
  | nil => exact h
  | cons frame frames ih => exact ih (fault?_put v (some f) frame)

theorem follows_halt (h : v.fault? = some f) (ts : List Token) :
    Follows ts (halt v f frames) :=
  .halted (by simp [fault?_unwind h]) ts

theorem follows_complete (h : ∀ f ∈ frames, f.IsWhole) (hv : v.IsWhole) :
    Follows (framesTokens frames ++ v.toTokens) (complete v frames) := by
  cases frames with
  | nil => exact .done hv
  | cons frame frames =>
    obtain ⟨hframe, h⟩ := List.forall_mem_cons.mp h
    exact .after h hframe hv

theorem follows_begin (h : ∀ f ∈ frames, f.IsWhole) (t : Token) :
    Follows (framesTokens frames ++ [t]) (begin frames t) := by
  have hleaf {v : Reading} (htokens : v.toTokens = [t]) (hv : v.fault? = none → v.IsWhole) :
      Follows (framesTokens frames ++ [t]) (leaf v frames) := by
    unfold leaf
    split
    · rename_i hfault
      exact htokens ▸ follows_complete h (hv hfault)
    · rename_i f hfault
      exact follows_halt hfault _
  cases t with
  | openList => exact .firstItem h
  | openObject => exact .firstKey h
  | null => exact hleaf (by rw [toTokens]) fun _ => .null
  | bool b => exact hleaf (by rw [toTokens]) fun _ => .bool b
  | number n =>
    refine hleaf (by rw [toTokens]) fun hfault => ?_
    obtain ⟨bytes, defect⟩ := n
    cases defect with
    | none => exact .number bytes
    | some defect => cases hfault
  | string s =>
    refine hleaf (by rw [toTokens]) fun hfault => ?_
    obtain ⟨bytes, fault⟩ := s
    obtain rfl : fault = none := hfault
    exact .string bytes
  | misspelt | closeList | closeObject | comma | colon | stray => exact follows_halt rfl _

theorem follows_key (h : ∀ f ∈ frames, f.IsWhole) {members : List (RawString × Reading)}
    (hkeys : ∀ m ∈ members, m.1.fault = none) (hmembers : ∀ m ∈ members, m.2.IsWhole)
    (k : RawString) :
    Follows (framesTokens frames ++ .openObject :: (membersTokens members.reverse ++
      [.string k])) (key members frames k) := by
  unfold key
  split
  · rename_i hkey
    exact .colon h hkey hkeys hmembers
  · exact follows_halt rfl _

theorem itemsTokens_reverse_cons (v : Reading) (items : List Reading) :
    itemsTokens (v :: items).reverse = itemsTokens items.reverse ++ (v.toTokens ++ [.comma]) := by
  simp [itemsTokens]

theorem membersTokens_reverse_cons (m : RawString × Reading)
    (members : List (RawString × Reading)) :
    membersTokens (m :: members).reverse =
      membersTokens members.reverse ++ (memberTokens m ++ [.comma]) := by
  simp [membersTokens]

/-- A value that ends a list or an object, or is followed by another. -/
theorem follows_after {frame : Frame} (h : ∀ f ∈ frames, f.IsWhole) (hframe : frame.IsWhole)
    (hv : v.IsWhole) (t : Token) :
    Follows (framesTokens (frame :: frames) ++ v.toTokens ++ [t])
      (step (.after v frame frames) t) := by
  cases frame with
  | list items =>
    have hitems : ∀ r ∈ v :: items, r.IsWhole := List.forall_mem_cons.mpr ⟨hv, hframe⟩
    cases t with
    | comma =>
      have hnext := Follows.nextItem h hitems
      rwa [framesTokens, Frame.toTokens, itemsTokens_reverse_cons, ← List.cons_append,
        ← List.append_assoc, ← List.append_assoc] at hnext
    | closeList =>
      have hlist : (list (v :: items).reverse none).IsWhole :=
        .list fun r hr => hitems r (List.mem_reverse.mp hr)
      have hclosed := follows_complete h hlist
      rw [List.reverse_cons, toTokens_list_concat] at hclosed
      simpa [framesTokens, Frame.toTokens, step] using hclosed
    | _ => exact follows_halt rfl _
  | object members key =>
    obtain ⟨hkey, hkeys, hmembers⟩ := hframe
    have hkeys' : ∀ m ∈ (key, v) :: members, m.1.fault = none :=
      List.forall_mem_cons.mpr ⟨hkey, hkeys⟩
    have hmembers' : ∀ m ∈ (key, v) :: members, m.2.IsWhole :=
      List.forall_mem_cons.mpr ⟨hv, hmembers⟩
    cases t with
    | comma =>
      have hnext := Follows.nextKey h hkeys' hmembers'
      rw [membersTokens_reverse_cons] at hnext
      simpa [framesTokens, Frame.toTokens, memberTokens, step] using hnext
    | closeObject =>
      have hobject : (object ((key, v) :: members).reverse none none).IsWhole :=
        .object (fun m hm => hkeys' m (List.mem_reverse.mp hm))
          fun m hm => hmembers' m (List.mem_reverse.mp hm)
      have hclosed := follows_complete h hobject
      rw [List.reverse_cons, toTokens_object_concat] at hclosed
      simpa [framesTokens, Frame.toTokens, memberTokens, step] using hclosed
    | _ => exact follows_halt rfl _

theorem follows_step (h : Follows ts s) (t : Token) : Follows (ts ++ [t]) (step s t) := by
  cases h with
  | value h => exact follows_begin h t
  | @firstItem frames h =>
    by_cases ht : t = .closeList
    · subst ht
      have hempty := follows_complete h (v := .list [] none) (.list (List.forall_mem_nil _))
      simpa [toTokens, step] using hempty
    · have hbegin : step (.firstItem frames) t = begin (.list [] :: frames) t := by
        cases t <;> first | rfl | exact absurd rfl ht
      rw [hbegin]
      have hframe : Frame.IsWhole (.list []) := List.forall_mem_nil _
      exact follows_begin (List.forall_mem_cons.mpr ⟨hframe, h⟩) t
  | @nextItem items frames h hitems =>
    by_cases ht : t = .closeList
    · subst ht
      exact follows_halt rfl _
    · have hbegin : step (.nextItem items frames) t = begin (.list items :: frames) t := by
        cases t <;> first | rfl | exact absurd rfl ht
      rw [hbegin]
      have hframe : Frame.IsWhole (.list items) := hitems
      exact follows_begin (List.forall_mem_cons.mpr ⟨hframe, h⟩) t
  | firstKey h =>
    cases t with
    | closeObject =>
      have hobject : Reading.IsWhole (.object [] none none) :=
        .object (List.forall_mem_nil _) (List.forall_mem_nil _)
      have hempty := follows_complete h hobject
      simpa [toTokens, step] using hempty
    | string k =>
      have hkey := follows_key h (List.forall_mem_nil _) (List.forall_mem_nil _) k
      simpa [membersTokens, step] using hkey
    | _ => exact follows_halt rfl _
  | nextKey h hkeys hmembers =>
    cases t with
    | string k =>
      have hkey := follows_key h hkeys hmembers k
      simpa [step] using hkey
    | _ => exact follows_halt rfl _
  | @colon members key frames h hkey hkeys hmembers =>
    cases t with
    | colon =>
      have hframe : Frame.IsWhole (.object members key) := ⟨hkey, hkeys, hmembers⟩
      have hvalue := Follows.value (List.forall_mem_cons.mpr ⟨hframe, h⟩)
      simpa [framesTokens, Frame.toTokens, step] using hvalue
    | _ => exact follows_halt rfl _
  | after h hframe hv => exact follows_after h hframe hv t
  | done hv => exact .trailing hv t []
  | trailing hv t' rest =>
    rw [List.append_assoc, List.cons_append]
    exact .trailing hv t' (rest ++ [t])
  | halted hv => exact .halted hv _

theorem follows_foldl (h : Follows ts s) (ts' : List Token) :
    Follows (ts ++ ts') (ts'.foldl step s) := by
  induction ts' generalizing ts s with
  | nil => rwa [List.append_nil]
  | cons t rest ih =>
    have hrest := ih (follows_step h t)
    rwa [List.append_assoc, List.singleton_append] at hrest

theorem follows (ts : List Token) : Follows ts (ts.foldl step (.value [])) :=
  follows_foldl (.value (List.forall_mem_nil _)) ts

theorem fault?_finish (h : Follows ts s) (hfault : s.finish.fault? = none) :
    ∃ v, s = .done v ∨ s = .trailing v := by
  have hopen {v : Reading} {f : Fault} {frames : List Frame} (hv : v.fault? = some f) :
      (unwind f v frames).fault? ≠ none := by
    simp [fault?_unwind hv]
  cases h with
  | done hv => exact ⟨_, .inl rfl⟩
  | trailing hv t rest => exact ⟨_, .inr rfl⟩
  | halted hv => exact absurd hfault hv
  | @after v frame frames h hframe hv =>
    cases frame <;> exact absurd hfault (hopen rfl)
  | value _ | firstItem _ | nextItem _ _ | firstKey _ | nextKey _ _ _ | colon _ _ _ _ =>
    exact absurd hfault (hopen rfl)

theorem exists_toTokens_eq_cons (h : v.IsWhole) :
    ∃ t rest, v.toTokens = t :: rest ∧ t ≠ .closeList := by
  cases h <;> exact ⟨_, _, by rw [toTokens], by simp⟩

theorem foldl_item {done : List Reading}
    (hs : s = .firstItem frames ∧ done = [] ∨ s = .nextItem done frames) (h : v.IsWhole) :
    v.toTokens.foldl step s = v.toTokens.foldl step (.value (.list done :: frames)) := by
  obtain ⟨t, rest, htokens, ht⟩ := exists_toTokens_eq_cons h
  rw [htokens, List.foldl_cons, List.foldl_cons]
  congr 1
  rcases hs with ⟨rfl, rfl⟩ | rfl <;> cases t <;> first | rfl | exact absurd rfl ht

theorem foldl_items {items done : List Reading} (hne : items ≠ [])
    (hs : s = .firstItem frames ∧ done = [] ∨ s = .nextItem done frames)
    (hitems : ∀ r ∈ items, r.IsWhole)
    (h : ∀ r ∈ items, ∀ frames, r.toTokens.foldl step (.value frames) = complete r frames) :
    ([Token.comma].intercalate (items.map toTokens) ++ [Token.closeList]).foldl step s =
      complete (.list (done.reverse ++ items) none) frames := by
  induction items generalizing s done with
  | nil => exact absurd rfl hne
  | cons v rest ih =>
    obtain ⟨hv, hrest⟩ := List.forall_mem_cons.mp h
    obtain ⟨hwhole, hwholes⟩ := List.forall_mem_cons.mp hitems
    have hitem : v.toTokens.foldl step s = .after v (.list done) frames := by
      rw [foldl_item hs hwhole, hv]
      rfl
    cases rest with
    | nil =>
      have hclose : step (.after v (.list done) frames) .closeList =
          complete (.list (v :: done).reverse none) frames := rfl
      rw [List.map_singleton, List.intercalate_singleton, List.foldl_append, hitem,
        List.foldl_cons, List.foldl_nil, hclose, List.reverse_cons]
    | cons w rest =>
      have hcomma : step (.after v (.list done) frames) .comma = .nextItem (v :: done) frames := rfl
      rw [List.map_cons, List.map_cons, List.intercalate_cons_cons, List.append_assoc,
        List.append_assoc, List.foldl_append, hitem, List.singleton_append, List.foldl_cons, hcomma,
        ← List.map_cons, ih (by simp) (.inr rfl) hwholes hrest]
      simp

theorem foldl_members {members done : List (RawString × Reading)} (hne : members ≠ [])
    (hs : s = .firstKey frames ∧ done = [] ∨ s = .nextKey done frames)
    (hkeys : ∀ m ∈ members, m.1.fault = none)
    (h : ∀ m ∈ members, ∀ frames, m.2.toTokens.foldl step (.value frames) = complete m.2 frames) :
    ([Token.comma].intercalate (members.map memberTokens) ++ [Token.closeObject]).foldl step s =
      complete (.object (done.reverse ++ members) none none) frames := by
  induction members generalizing s done with
  | nil => exact absurd rfl hne
  | cons m rest ih =>
    obtain ⟨hv, hrest⟩ := List.forall_mem_cons.mp h
    obtain ⟨hkey, hkeys⟩ := List.forall_mem_cons.mp hkeys
    have hkey' : key done frames m.1 = .colon done m.1 frames := by rw [key, hkey]
    have hname : step s (.string m.1) = .colon done m.1 frames := by
      rcases hs with ⟨rfl, rfl⟩ | rfl <;> exact hkey'
    have hcolon : step (.colon done m.1 frames) .colon = .value (.object done m.1 :: frames) := rfl
    have hmember : (memberTokens m).foldl step s = .after m.2 (.object done m.1) frames := by
      rw [memberTokens, List.foldl_cons, hname, List.foldl_cons, hcolon, hv]
      rfl
    cases rest with
    | nil =>
      have hclose : step (.after m.2 (.object done m.1) frames) .closeObject =
          complete (.object (m :: done).reverse none none) frames := rfl
      rw [List.map_singleton, List.intercalate_singleton, List.foldl_append, hmember,
        List.foldl_cons, List.foldl_nil, hclose, List.reverse_cons]
    | cons m' rest =>
      have hcomma : step (.after m.2 (.object done m.1) frames) .comma =
          .nextKey (m :: done) frames := rfl
      rw [List.map_cons, List.map_cons, List.intercalate_cons_cons, List.append_assoc,
        List.append_assoc, List.foldl_append, hmember, List.singleton_append, List.foldl_cons,
        hcomma, ← List.map_cons, ih (by simp) (.inr rfl) hkeys hrest]
      simp

theorem foldl_toTokens (h : v.IsWhole) (frames : List Frame) :
    v.toTokens.foldl step (.value frames) = complete v frames := by
  induction h generalizing frames with
  | null | bool b | number bytes | string bytes =>
    rw [toTokens]
    rfl
  | @list items h ih =>
    rw [toTokens]
    cases items with
    | nil => rfl
    | cons v rest => exact foldl_items (List.cons_ne_nil v rest) (.inl ⟨rfl, rfl⟩) h ih
  | @object members hkeys h ih =>
    rw [toTokens]
    cases members with
    | nil => rfl
    | cons m rest => exact foldl_members (List.cons_ne_nil m rest) (.inl ⟨rfl, rfl⟩) hkeys ih

end Reading.State

variable {v : Reading} {text : List UInt8}

theorem value_read (text : List UInt8) :
    (read text).value = ((tokens text).foldl Reading.State.step (.value [])).finish := by
  rw [read]
  split
  · rename_i v hv
    rw [hv]
    rfl
  · rfl

theorem read_of_tokens (h : v.IsWhole) {more : List Token}
    (htokens : tokens text = v.toTokens ++ more) : read text = ⟨v, !more.isEmpty⟩ := by
  have hdone : v.toTokens.foldl Reading.State.step (.value []) = .done v :=
    Reading.State.foldl_toTokens h []
  have hover (ts : List Token) :
      ts.foldl Reading.State.step (.trailing v) = .trailing v := by
    induction ts with
    | nil => rfl
    | cons t ts ih => exact ih
  rw [read, htokens, List.foldl_append, hdone]
  cases more with
  | nil => rfl
  | cons t more =>
    have hnext : Reading.State.step (.done v) t = .trailing v := rfl
    rw [List.foldl_cons, hnext, hover]
    rfl

theorem tokens_of_fault? (h : (read text).value.fault? = none) :
    (read text).value.IsWhole ∧ ∃ more, tokens text = (read text).value.toTokens ++ more := by
  have hfollows := Reading.State.follows (tokens text)
  rw [value_read] at h ⊢
  generalize tokens text = ts at h hfollows ⊢
  obtain ⟨v, hv | hv⟩ := Reading.State.fault?_finish hfollows h
  · rw [hv] at hfollows ⊢
    cases hfollows with
    | done hwhole => exact ⟨hwhole, [], (List.append_nil _).symm⟩
  · rw [hv] at hfollows ⊢
    cases hfollows with
    | trailing hwhole t more => exact ⟨hwhole, t :: more, rfl⟩

end DeviceAuth.Json
