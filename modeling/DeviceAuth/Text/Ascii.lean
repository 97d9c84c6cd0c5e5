/-! Comparisons that ignore the case of ASCII letters, and search inside a text. -/
namespace DeviceAuth.Text

def lower (s : String) : String :=
  String.ofList (s.toList.map Char.toLower)

def equalsIgnoringCase (a b : String) : Bool :=
  lower a == lower b

def occursIn (part : List Char) : List Char → Bool
  | [] => part.isEmpty
  | c :: cs => part.isPrefixOf (c :: cs) || occursIn part cs

def contains (s part : String) : Bool :=
  occursIn part.toList s.toList

def startsWith (s start : String) : Bool :=
  start.toList.isPrefixOf s.toList

def splitFirst (sep : Char) : List Char → Option (List Char × List Char)
  | [] => none
  | c :: cs =>
    if c = sep then some ([], cs)
    else (splitFirst sep cs).map fun (before, after) => (c :: before, after)

def digits? (cs : List Char) : Option Nat :=
  if cs.isEmpty then none
  else cs.foldlM (fun n c => if c.isDigit then some (n * 10 + (c.toNat - 48)) else none) 0

theorem splitFirst_eq_some {sep : Char} {cs before after : List Char}
    (h : splitFirst sep cs = some (before, after)) :
    cs = before ++ sep :: after ∧ sep ∉ before := by
  induction cs generalizing before with
  | nil => simp [splitFirst] at h
  | cons c cs ih =>
    by_cases hc : c = sep
    · simp [splitFirst, hc] at h
      obtain ⟨rfl, rfl⟩ := h
      simp [hc]
    · simp only [splitFirst, hc, if_false, Option.map_eq_some_iff] at h
      obtain ⟨⟨b, a⟩, hs, heq⟩ := h
      cases heq
      obtain ⟨rfl, hn⟩ := ih hs
      simp [hn, Ne.symm hc]

end DeviceAuth.Text
