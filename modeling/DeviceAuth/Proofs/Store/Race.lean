import DeviceAuth.Proofs.Store.Commuting

/-! Swaps that compete for the record of one device: all expect the same refresh token, and none
puts it back. Whatever happens beside them, the first wins and the others learn that they came late.
-/
namespace DeviceAuth.Store

variable {s : Store} {op : Operation} {ops : List Operation} {device : DeviceId}
  {token : Option Secret}

/-- No operation is refused, and what is changed can be written down. -/
structure IsWorking (s : Store) : Prop where
  refused : s.refused = []
  writable : ∀ t, (s.write t).1 = .ok ()

theorem isWorking_of_write {t : Table} (hrefused : s.refused = []) (h : (s.write t).1 = .ok ()) :
    s.IsWorking :=
  ⟨hrefused, fun t' => (write_congr s t' t).trans h⟩

namespace IsWorking

theorem apply (hs : s.IsWorking) (op : Operation) : (s.apply op).2.IsWorking :=
  ⟨(refused_apply s op).trans hs.refused, fun t => (write_apply s op t).trans (hs.writable t)⟩

theorem after (hs : s.IsWorking) (ops : List Operation) : (s.after ops).IsWorking := by
  induction ops generalizing s with
  | nil => exact hs
  | cons op ops ih => exact ih (hs.apply op)

theorem kind_notMem_refused (hs : s.IsWorking) (op : Operation) : op.kind ∉ s.refused := by
  simp [hs.refused]

theorem answer (hs : s.IsWorking) (op : Operation) :
    (s.apply op).1 = .ok (s.table.apply op).1 := by
  rw [apply_of_not_refused (hs.kind_notMem_refused op)]
  split
  · rfl
  · simp only [hs.writable]
    rfl

theorem table (hs : s.IsWorking) (op : Operation) :
    (s.apply op).2.table = s.table.next op := by
  rw [table_apply, if_neg (hs.kind_notMem_refused op)]

end IsWorking

/-- The operation leaves the record of the device alone, or is to replace it for as long as it has
some refresh token, which the replacement does not have. -/
inductive Operation.Competes (device : DeviceId) (token : Option Secret) : Operation → Prop where
  | aside {op : Operation} (target : op.target? ≠ some device) : Competes device token op
  | swap {replacement : Record} (keyed : replacement.device = device)
      (moves : replacement.refreshToken ≠ token) :
      Competes device token (.swap device (token.map (·.text)) replacement)

def replacements (device : DeviceId) : List Operation → List Record
  | [] => []
  | .swap d _ replacement :: ops =>
    if d = device then replacement :: replacements device ops else replacements device ops
  | _ :: ops => replacements device ops

def outcomes (device : DeviceId) : Store → List Operation → List (Except StoreError SwapOutcome)
  | _, [] => []
  | s, .swap d expected replacement :: ops =>
    let (outcome, s) := s.apply (.swap d expected replacement)
    if d = device then outcome :: outcomes device s ops else outcomes device s ops
  | s, op :: ops => outcomes device (s.apply op).2 ops

theorem replacements_aside (h : op.target? ≠ some device) :
    replacements device (op :: ops) = replacements device ops := by
  cases op with
  | swap d expected replacement => exact if_neg fun hd => h (congrArg some hd)
  | _ => rfl

theorem outcomes_aside (h : op.target? ≠ some device) :
    outcomes device s (op :: ops) = outcomes device (s.apply op).2 ops := by
  cases op with
  | swap d expected replacement => exact if_neg fun hd => h (congrArg some hd)
  | _ => rfl

theorem replacements_swap (expected : Option String) (replacement : Record) :
    replacements device (.swap device expected replacement :: ops) =
      replacement :: replacements device ops :=
  if_pos rfl

theorem outcomes_swap (expected : Option String) (replacement : Record) :
    outcomes device s (.swap device expected replacement :: ops) =
      (s.apply (.swap device expected replacement)).1 ::
        outcomes device (s.apply (.swap device expected replacement)).2 ops :=
  if_pos rfl

namespace Table

theorem refreshAgrees_text_iff {current : Option Secret} :
    refreshAgrees current (token.map (·.text)) = true ↔ current = token :=
  refreshAgrees_iff_map.trans (Option.map_injective Secret.text_injective).eq_iff

theorem swapOutcome_of_get? {t : Table} {r : Record} (h : t.get? device = some r)
    (token : Option Secret) :
    t.swapOutcome device (token.map (·.text)) =
      if r.refreshToken = token then .updated else .refreshMismatch := by
  rw [swapOutcome, h]
  exact if_congr refreshAgrees_text_iff rfl rfl

theorem swapOutcome_of_get?_eq_none {t : Table} (h : t.get? device = none)
    (expected : Option String) : t.swapOutcome device expected = .missing := by
  rw [swapOutcome, h]

theorem get?_next_of_late {t : Table} {expected : Option String} (replacement : Record)
    (h : t.swapOutcome device expected ≠ .updated) :
    (t.next (.swap device expected replacement)).get? device = t.get? device := by
  rw [next, apply, if_neg h]
  rfl

end Table

/-- Swaps that do not find the token that they expect change nothing, so that none after them finds
it either. -/
theorem outcomes_of_late (hs : s.IsWorking) (hops : ∀ op ∈ ops, op.Competes device token)
    (hlate : s.table.swapOutcome device (token.map (·.text)) ≠ .updated) :
    outcomes device s ops = List.replicate (replacements device ops).length
        (.ok (s.table.swapOutcome device (token.map (·.text)))) ∧
      (s.after ops).table.get? device = s.table.get? device := by
  induction ops generalizing s with
  | nil => exact ⟨rfl, rfl⟩
  | cons op ops ih =>
    obtain ⟨hop, hops⟩ := List.forall_mem_cons.mp hops
    have hget : (s.apply op).2.table.get? device = s.table.get? device := by
      cases hop with
      | aside htarget => exact get?_table_apply_of_ne htarget
      | swap _ _ => rw [hs.table, Table.get?_next_of_late _ hlate]
    have hsame (expected : Option String) :
        (s.apply op).2.table.swapOutcome device expected = s.table.swapOutcome device expected := by
      rw [Table.swapOutcome, Table.swapOutcome, hget]
    obtain ⟨hrest, hend⟩ := ih (hs.apply op) hops (by rwa [hsame])
    rw [hsame] at hrest
    refine ⟨?_, hend.trans hget⟩
    cases hop with
    | aside htarget => rw [outcomes_aside htarget, replacements_aside htarget, hrest]
    | swap _ _ =>
      rw [outcomes_swap, replacements_swap, hrest, hs.answer]
      rfl

/-- The first swap finds the token that it expects, and what it puts there stays. -/
theorem outcomes_of_first (hs : s.IsWorking) (hops : ∀ op ∈ ops, op.Competes device token)
    {r first : Record} {rest : List Record} (hr : s.table.get? device = some r)
    (htoken : r.refreshToken = token) (hfirst : replacements device ops = first :: rest) :
    outcomes device s ops =
        .ok .updated :: List.replicate rest.length (.ok .refreshMismatch) ∧
      (s.after ops).table.get? device = some first := by
  induction ops generalizing s with
  | nil => cases hfirst
  | cons op ops ih =>
    obtain ⟨hop, hothers⟩ := List.forall_mem_cons.mp hops
    cases hop with
    | aside htarget =>
      rw [replacements_aside htarget] at hfirst
      rw [outcomes_aside htarget]
      exact ih (hs.apply op) hothers ((get?_table_apply_of_ne htarget).trans hr) hfirst
    | @swap replacement _ hmoves =>
      rw [replacements_swap] at hfirst
      obtain ⟨rfl, rfl⟩ := List.cons.inj hfirst
      have hwins : s.table.swapOutcome device (token.map (·.text)) = .updated := by
        rw [Table.swapOutcome_of_get? hr, if_pos htoken]
      have hput := Table.get?_next_swap replacement hwins
      rw [← hs.table] at hput
      have hmissed := Table.swapOutcome_of_get? hput token
      rw [if_neg hmoves] at hmissed
      have hlate := hmissed.trans_ne (b := SwapOutcome.refreshMismatch) (c := .updated) nofun
      obtain ⟨hrest, hend⟩ := outcomes_of_late (hs.apply _) hothers hlate
      refine ⟨?_, hend.trans hput⟩
      rw [outcomes_swap, hrest, hmissed, hs.answer]
      exact congrArg (· :: _) (congrArg Except.ok hwins)

/-- Of the swaps that compete for the record of a device the first wins, all others are told that
the token is another by then, and the device is left with what the first put there. Where there is
no record, all are told so and there still is none. -/
theorem competition_has_one_winner (hs : s.IsWorking)
    (hops : ∀ op ∈ ops, op.Competes device token) :
    (∀ r first rest, s.table.get? device = some r → r.refreshToken = token →
      replacements device ops = first :: rest →
        outcomes device s ops =
            .ok .updated :: List.replicate rest.length (.ok .refreshMismatch) ∧
          ((s.after ops).apply (.fetch device)).1 = .ok (some first)) ∧
    (s.table.get? device = none →
      outcomes device s ops =
          List.replicate (replacements device ops).length (.ok .missing) ∧
        ((s.after ops).apply (.fetch device)).1 = .ok none) := by
  constructor
  · intro r first rest hr htoken hfirst
    obtain ⟨houtcomes, hend⟩ := outcomes_of_first hs hops hr htoken hfirst
    exact ⟨houtcomes, ((hs.after ops).answer _).trans (congrArg Except.ok hend)⟩
  · intro hnone
    have hmissing := Table.swapOutcome_of_get?_eq_none hnone (token.map (·.text))
    obtain ⟨houtcomes, hend⟩ := outcomes_of_late hs hops (by simp [hmissing])
    rw [hmissing] at houtcomes
    exact ⟨houtcomes, ((hs.after ops).answer _).trans (congrArg Except.ok (hend.trans hnone))⟩

def sampleRivals : List Record :=
  [{ Record.sample with refreshToken := none }, { Record.sample with refreshToken := some ⟨""⟩ }]

/-- Two swaps for the sample's record, with a look at it and the record of another device in
between. -/
def sampleRace : List Operation :=
  [.fetch Record.sample.device, .swap Record.sample.device (some "é\n") sampleRivals[0],
    .save stranger, .swap Record.sample.device (some "é\n") sampleRivals[1]]

/-- They have one winner in a file store that holds the record, and none in one that does not. -/
theorem sampleRace_has_one_winner :
    ((fresh.after [.save .sample]).IsWorking ∧
      (∀ op ∈ sampleRace, op.Competes Record.sample.device Record.sample.refreshToken) ∧
      (fresh.after [.save .sample]).table.get? Record.sample.device = some .sample ∧
      outcomes Record.sample.device (fresh.after [.save .sample]) sampleRace =
        [.ok .updated, .ok .refreshMismatch] ∧
      (((fresh.after [.save .sample]).after sampleRace).apply (.fetch Record.sample.device)).1 =
        .ok (some sampleRivals[0])) ∧
    fresh.table.get? Record.sample.device = none ∧
      outcomes Record.sample.device fresh sampleRace = [.ok .missing, .ok .missing] ∧
      ((fresh.after sampleRace).apply (.fetch Record.sample.device)).1 = .ok none := by
  have hfresh : fresh.IsWorking := isWorking_of_write (t := .empty) rfl (by decide +kernel)
  have hheld := hfresh.after [.save .sample]
  have hrace : ∀ op ∈ sampleRace,
      op.Competes Record.sample.device Record.sample.refreshToken := by
    simp only [sampleRace, List.forall_mem_cons]
    exact ⟨.aside nofun, .swap rfl (by decide), .aside (by decide), .swap rfl (by decide), nofun⟩
  exact ⟨⟨hheld, hrace, rfl,
    (competition_has_one_winner hheld hrace).1 _ _ [sampleRivals[1]] rfl rfl rfl⟩,
    rfl, (competition_has_one_winner hfresh hrace).2 rfl⟩

end DeviceAuth.Store
