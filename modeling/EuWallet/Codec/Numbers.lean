import EuWallet.Codec.Cbor
import EuWallet.Lib.Framing
import Mathlib.Tactic.Linarith
import Mathlib.Tactic.Ring

/-! # Numbers and texts as bytes

Big-endian numbers are read back from their bytes and written back to them; a text is determined by
its UTF-8 bytes. -/

namespace EuWallet.Codec

open Lib

theorem beBytes_succ (k n : ℕ) : beBytes (k + 1) n = UInt8.ofNat (n / 256 ^ k) :: beBytes k n := by
  simp only [beBytes, List.range_succ_eq_map, List.map_cons, List.map_map, Nat.sub_zero,
    Nat.add_sub_cancel, List.cons.injEq, true_and]
  refine List.map_congr_left fun i _ => ?_
  rw [Function.comp_apply, Nat.succ_eq_add_one, Nat.add_comm i 1, Nat.sub_add_eq]

/-- The bytes of a number depend on its last digits only. -/
theorem beBytes_mul_add (k a n : ℕ) : beBytes k (a * 256 ^ k + n) = beBytes k n := by
  induction k generalizing a with
  | zero => rfl
  | succ k ih =>
    have hpos : 0 < 256 ^ k := by positivity
    have hsplit : a * 256 ^ (k + 1) + n = 256 * a * 256 ^ k + n := by ring
    have hdigit : (256 * a * 256 ^ k + n) / 256 ^ k = 256 * a + n / 256 ^ k := by
      rw [Nat.mul_comm (256 * a), Nat.mul_add_div hpos]
    have hbyte : UInt8.ofNat (256 * a + n / 256 ^ k) = UInt8.ofNat (n / 256 ^ k) := by
      rw [← UInt8.toNat_inj, UInt8.toNat_ofNat', UInt8.toNat_ofNat']
      omega
    rw [beBytes_succ, beBytes_succ, hsplit, ih, hdigit, hbyte]

theorem utf8_injective : Function.Injective utf8 := by
  intro s t h
  refine String.toByteArray_inj.mp (ByteArray.ext ?_)
  exact Array.toList_inj.mp h

theorem utf8_eq_flatMap (s : String) : utf8 s = s.toList.flatMap String.utf8EncodeChar := by
  conv_lhs => rw [← String.ofList_toList (s := s)]
  rw [utf8, String.toByteArray_ofList, List.utf8Encode]
  simp

@[simp] theorem length_utf8 (s : String) : (utf8 s).length = s.utf8ByteSize := by
  unfold utf8
  simp

/-- A text behind the length of its bytes. -/
theorem sizedText_splits {N : Set ℕ} {count : ℕ → Bytes} (hcount : SplitsOn N count) :
    SplitsOn {s : String | s.utf8ByteSize ∈ N} fun s => count (utf8 s).length ++ utf8 s :=
  hcount.of_length.comp (fun s hs => by simpa using hs) utf8_injective.injOn

end EuWallet.Codec

namespace EuWallet.Codec.Cbor

open Lib

theorem foldl_beNat (b : Bytes) (n : ℕ) :
    b.foldl (fun n x => n * 256 + x.toNat) n = n * 256 ^ b.length + beNat b := by
  induction b generalizing n with
  | nil => simp [beNat]
  | cons x b ih =>
    simp only [List.foldl_cons, List.length_cons, beNat]
    rw [ih, ih (0 * 256 + x.toNat)]
    ring

theorem beNat_cons (x : UInt8) (b : Bytes) : beNat (x :: b) = x.toNat * 256 ^ b.length + beNat b := by
  rw [beNat, List.foldl_cons, foldl_beNat]
  simp

theorem beNat_lt (b : Bytes) : beNat b < 256 ^ b.length := by
  induction b with
  | nil => simp [beNat]
  | cons x b ih =>
    have hx : x.toNat < 256 := x.toNat_lt
    rw [beNat_cons, List.length_cons, pow_succ]
    nlinarith

/-- A number is read back from its bytes. -/
theorem beNat_beBytes (k n : ℕ) : beNat (beBytes k n) = n % 256 ^ k := by
  induction k with
  | zero => simp [beNat, beBytes, Nat.mod_one]
  | succ k ih =>
    rw [beBytes_succ, beNat_cons, length_beBytes, ih, UInt8.toNat_ofNat', pow_succ 256 k, Nat.mod_mul]
    ring

/-- Bytes are written back from their number. -/
theorem beBytes_beNat (b : Bytes) : beBytes b.length (beNat b) = b := by
  induction b with
  | nil => rfl
  | cons x b ih =>
    have hlt := beNat_lt b
    have hpos : 0 < 256 ^ b.length := by positivity
    have hhead : beNat (x :: b) / 256 ^ b.length = x.toNat := by
      rw [beNat_cons, Nat.mul_comm, Nat.mul_add_div hpos, Nat.div_eq_of_lt hlt, Nat.add_zero]
    have htail : beBytes b.length (beNat (x :: b)) = beBytes b.length (beNat b) := by
      rw [beNat_cons, beBytes_mul_add]
    rw [List.length_cons, beBytes_succ, hhead, htail, ih]
    simp

theorem beBytes_injOn (k : ℕ) : Set.InjOn (beBytes k) {n | n < 256 ^ k} := by
  intro a ha b hb h
  have hnat : beNat (beBytes k a) = beNat (beBytes k b) := by rw [h]
  rwa [beNat_beBytes, beNat_beBytes, Nat.mod_eq_of_lt ha, Nat.mod_eq_of_lt hb] at hnat

theorem beBytes_splits (k : ℕ) : SplitsOn {n | n < 256 ^ k} (beBytes k) :=
  .of_width k (fun n _ => by simp [beBytes]) (beBytes_injOn k)

theorem hash_splits : SplitsOn Set.univ fun h : Hash32 => h.1 :=
  .of_width 32 (fun h _ => h.2) fun _ _ _ _ h => Subtype.ext h

end EuWallet.Codec.Cbor
