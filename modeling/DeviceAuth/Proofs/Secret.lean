import DeviceAuth.Proofs.Text.Utf8
import DeviceAuth.Secret

/-! Comparing all bytes of two texts, wherever the first difference is, decides whether the texts
are equal. -/
namespace DeviceAuth

namespace Secret

theorem or_eq_zero {a b : UInt8} : a ||| b = 0 ↔ a = 0 ∧ b = 0 := by
  rw [← UInt8.toBitVec_inj, ← UInt8.toBitVec_inj, ← UInt8.toBitVec_inj]
  simp [BitVec.or_eq_zero_iff]

theorem xor_eq_zero {a b : UInt8} : a ^^^ b = 0 ↔ a = b := by
  rw [← UInt8.toBitVec_inj, ← UInt8.toBitVec_inj]
  simp [BitVec.xor_eq_zero_iff]

theorem foldl_differences (pairs : List (UInt8 × UInt8)) (seen : UInt8) :
    pairs.foldl (fun seen (x, y) => seen ||| (x ^^^ y)) seen = 0 ↔
      seen = 0 ∧ ∀ p ∈ pairs, p.1 = p.2 := by
  induction pairs generalizing seen with
  | nil => simp
  | cons p rest ih =>
    simp only [List.foldl_cons, ih, or_eq_zero, xor_eq_zero, List.forall_mem_cons]
    exact and_assoc

theorem forall_mem_zip {a b : List UInt8} (h : a.length = b.length) :
    (∀ p ∈ List.zip a b, p.1 = p.2) ↔ a = b := by
  induction a generalizing b with
  | nil =>
    cases b with
    | nil => simp
    | cons y ys => simp at h
  | cons x xs ih =>
    cases b with
    | nil => simp at h
    | cons y ys =>
      have hl : xs.length = ys.length := by simpa using h
      rw [List.zip_cons_cons, List.forall_mem_cons, ih hl, List.cons.injEq]

theorem differences_eq_zero {a b : List UInt8} (h : a.length = b.length) :
    differences a b = 0 ↔ a = b := by
  rw [differences, foldl_differences, forall_mem_zip h]
  exact and_iff_right rfl

@[simp] theorem agrees_iff {s : Secret} {presented : String} :
    s.agrees presented = true ↔ s.text = presented := by
  simp only [agrees, Bool.and_eq_true, beq_iff_eq]
  constructor
  · rintro ⟨hl, hd⟩
    exact Text.utf8_inj ((differences_eq_zero hl).mp hd)
  · rintro rfl
    exact ⟨rfl, (differences_eq_zero rfl).mpr rfl⟩

theorem text_injective : Function.Injective text := by
  rintro ⟨_⟩ ⟨_⟩ rfl
  rfl

@[simp] theorem isEmpty_iff {s : Secret} : s.isEmpty = true ↔ s.text = "" := by
  simp [isEmpty]

end Secret

end DeviceAuth
