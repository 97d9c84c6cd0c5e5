import DeviceAuth.Encoding.Base64
import Mathlib.Tactic.Common

/-! Whatever bytes are written are read back. Bytes and values of six bits are regrouped into each
other, and a digit stands for one value. -/
namespace DeviceAuth.Encoding.Base64

/-- The values of six bits that bytes consist of; the last one is filled up with zeros. -/
def sixes : List UInt8 → List Nat
  | [] => []
  | [x] => [x.toNat / 4, x.toNat % 4 * 16]
  | [x, y] => [x.toNat / 4, x.toNat % 4 * 16 + y.toNat / 16, y.toNat % 16 * 4]
  | x :: y :: z :: rest =>
    x.toNat / 4 :: (x.toNat % 4 * 16 + y.toNat / 16) :: (y.toNat % 16 * 4 + z.toNat / 64) ::
      z.toNat % 64 :: sixes rest

theorem encode_eq_map (a : Base64) (bytes : List UInt8) :
    a.encode bytes = (sixes bytes).map a.digit := by
  induction bytes using sixes.induct with
  | case1 => rfl
  | case2 x => rfl
  | case3 x y => rfl
  | case4 x y z rest ih => simp only [encode, sixes, List.map_cons, ih]

theorem lt_of_mem_sixes (bytes : List UInt8) : ∀ n ∈ sixes bytes, n < 64 := by
  induction bytes using sixes.induct with
  | case1 => simp [sixes]
  | case2 x =>
    have hx := x.toNat_lt
    simp only [sixes, List.forall_mem_cons]
    exact ⟨by omega, by omega, List.forall_mem_nil _⟩
  | case3 x y =>
    have hx := x.toNat_lt
    have hy := y.toNat_lt
    simp only [sixes, List.forall_mem_cons]
    exact ⟨by omega, by omega, by omega, List.forall_mem_nil _⟩
  | case4 x y z rest ih =>
    have hx := x.toNat_lt
    have hy := y.toNat_lt
    have hz := z.toNat_lt
    simp only [sixes, List.forall_mem_cons]
    exact ⟨by omega, by omega, by omega, by omega, ih⟩

theorem ofNat_eq {n : Nat} {x : UInt8} (h : n = x.toNat) : UInt8.ofNat n = x := by
  rw [h, UInt8.ofNat_toNat]

theorem join_sixes (bytes : List UInt8) : join (sixes bytes) = some bytes := by
  induction bytes using sixes.induct with
  | case1 => rfl
  | case2 x =>
    have hx : UInt8.ofNat (x.toNat / 4 * 4 + x.toNat % 4 * 16 / 16) = x := ofNat_eq (by omega)
    rw [sixes, join, if_pos (by omega), hx]
  | case3 x y =>
    have hbound := y.toNat_lt
    have hx : UInt8.ofNat (x.toNat / 4 * 4 + (x.toNat % 4 * 16 + y.toNat / 16) / 16) = x :=
      ofNat_eq (by omega)
    have hy : UInt8.ofNat ((x.toNat % 4 * 16 + y.toNat / 16) % 16 * 16 + y.toNat % 16 * 4 / 4) =
        y := ofNat_eq (by omega)
    rw [sixes, join, if_pos (by omega), hx, hy]
  | case4 x y z rest ih =>
    have hbound := y.toNat_lt
    have hbound' := z.toNat_lt
    have hx : UInt8.ofNat (x.toNat / 4 * 4 + (x.toNat % 4 * 16 + y.toNat / 16) / 16) = x :=
      ofNat_eq (by omega)
    have hy : UInt8.ofNat ((x.toNat % 4 * 16 + y.toNat / 16) % 16 * 16 +
        (y.toNat % 16 * 4 + z.toNat / 64) / 4) = y := ofNat_eq (by omega)
    have hz : UInt8.ofNat ((y.toNat % 16 * 4 + z.toNat / 64) % 4 * 64 + z.toNat % 64) = z :=
      ofNat_eq (by omega)
    rw [sixes, join, ih, hx, hy, hz]
    rfl

theorem mapM_digits {a : Base64} (ha : ∀ n < 64, a.value? (a.digit n) = some n) {ns : List Nat}
    (hns : ∀ n ∈ ns, n < 64) : (ns.map a.digit).mapM a.value? = some ns := by
  induction ns with
  | nil => rfl
  | cons n rest ih =>
    obtain ⟨hn, hrest⟩ := List.forall_mem_cons.mp hns
    rw [List.map_cons, List.mapM_cons, ha n hn, ih hrest]
    rfl

theorem urlSafe_digit : ∀ n < 64, urlSafe.value? (urlSafe.digit n) = some n ∧
    urlSafe.digit n ≠ '=' ∧ urlSafe.digit n ≠ '.' := by
  decide

theorem decode?_encode (bytes : List UInt8) :
    urlSafe.decode? (urlSafe.encode bytes) = some bytes := by
  rw [decode?, encode_eq_map, mapM_digits (fun n hn => (urlSafe_digit n hn).1)
    (lt_of_mem_sixes bytes)]
  exact join_sixes bytes

theorem ne_of_mem_encode {bytes : List UInt8} {c : Char} (h : c ∈ urlSafe.encode bytes) :
    c ≠ '=' ∧ c ≠ '.' := by
  rw [encode_eq_map, List.mem_map] at h
  obtain ⟨n, hn, rfl⟩ := h
  exact (urlSafe_digit n (lt_of_mem_sixes bytes n hn)).2

theorem encode_ne_nil {bytes : List UInt8} (h : bytes ≠ []) (a : Base64) :
    a.encode bytes ≠ [] := by
  rcases bytes with _ | ⟨x, _ | ⟨y, _ | ⟨z, rest⟩⟩⟩
  · exact absurd rfl h
  all_goals exact List.cons_ne_nil _ _

end DeviceAuth.Encoding.Base64
