import DeviceAuth.Json.Decode
import DeviceAuth.Text.Blank
import DeviceAuth.Text.Outline

/-! Lists of scopes. Each scope is kept once, at its first place, so that the text of a list follows
the order in which it was configured. -/
namespace DeviceAuth

inductive ScopeError where
  | empty
  | blank (scope : String)
  deriving DecidableEq, Repr

def ScopeError.message : ScopeError → String
  | .empty => "Scope entries cannot be empty."
  | .blank scope => "Scope contains whitespace: " ++ scope ++ "."

def ScopeError.name : ScopeError → String
  | .empty => "Empty"
  | .blank _ => "ContainsWhitespace"

namespace Scope

def error? (s : String) : Option ScopeError :=
  if s = "" then some .empty
  else if Text.hasBlank s then some (.blank s)
  else none

/-- The items that are new, behind those already there. -/
def addNew (there : List String) : List String → List String
  | [] => there
  | s :: rest => addNew (if s ∈ there then there else there ++ [s]) rest

theorem mem_addNew {there items : List String} {s : String} :
    s ∈ addNew there items ↔ s ∈ there ∨ s ∈ items := by
  induction items generalizing there with
  | nil => simp [addNew]
  | cons a rest ih =>
    by_cases h : a ∈ there
    · simp only [addNew, h, if_true, ih, List.mem_cons]
      constructor
      · rintro (h' | h') <;> simp [h']
      · rintro (h' | rfl | h') <;> simp [*]
    · simp [addNew, h, ih, or_assoc]

theorem nodup_addNew {there items : List String} (h : there.Nodup) :
    (addNew there items).Nodup := by
  induction items generalizing there with
  | nil => exact h
  | cons a rest ih =>
    by_cases ha : a ∈ there
    · simpa [addNew, ha] using ih h
    · simp only [addNew, ha, if_false]
      apply ih
      rw [List.nodup_append]
      refine ⟨h, by simp, ?_⟩
      intro x hx y hy
      simp only [List.mem_singleton] at hy
      subst hy
      intro e
      exact ha (e ▸ hx)

end Scope

structure ScopeSet where
  names : List String
  proper : ∀ s ∈ names, Scope.error? s = none
  nodup : names.Nodup
  deriving DecidableEq

namespace ScopeSet

def empty : ScopeSet := ⟨[], by simp, by simp⟩

def ofList (items : List String) : Except ScopeError ScopeSet :=
  match h : items.findSome? Scope.error? with
  | some e => .error e
  | none => .ok ⟨Scope.addNew [] items, by
      intro s hs
      rw [Scope.mem_addNew] at hs
      rw [List.findSome?_eq_none_iff] at h
      exact h s (by simpa using hs), Scope.nodup_addNew (by simp)⟩

def isSeparator (c : Char) : Bool := c == ',' || Text.isBlank c

/-- The runs between commas and blanks. -/
def parseList (s : String) : Except ScopeError ScopeSet :=
  ofList ((Text.fieldsOutside isSeparator s.toList).map String.ofList)

def text (s : ScopeSet) : String := " ".intercalate s.names

def contains (s : ScopeSet) (scope : String) : Bool := s.names.contains scope

def outline (s : ScopeSet) : String :=
  Text.Outline.tuple "ScopeSet" [Text.Outline.list (s.names.map Text.quoted)]

def toJson (s : ScopeSet) : Json := Json.strings s.names

/-- A list of strings; empty ones are left out. -/
def decoder : Json.Decoder ScopeSet :=
  (Json.Decoder.list .string).refine fun items =>
    (ofList (items.filter (· ≠ ""))).mapError ScopeError.message

end ScopeSet

end DeviceAuth
