import EuWallet.Codec.Text

/-! # Texts and bytes go back and forth

A text is read back from its bytes, and a byte string from its base64url text. -/

namespace EuWallet.Codec

theorem fromUtf8_utf8 (s : String) : fromUtf8 (utf8 s) = some s := by
  have hbytes : (⟨(utf8 s).toArray⟩ : ByteArray) = s.toByteArray := by simp [utf8]
  rw [fromUtf8, hbytes, String.fromUTF8?, dif_pos s.isValidUTF8]
  rfl

theorem utf8_append (s t : String) : utf8 (s ++ t) = utf8 s ++ utf8 t := by
  unfold utf8
  simp

/-- The bytes of two texts with a dot between them. -/
theorem fromUtf8_compact (first second : String) :
    fromUtf8 (utf8 first ++ 46 :: utf8 second) = some (first ++ "." ++ second) := by
  have hbytes : utf8 first ++ 46 :: utf8 second = utf8 (first ++ "." ++ second) := by
    rw [utf8_append, utf8_append, List.append_assoc]
    rfl
  rw [hbytes, fromUtf8_utf8]

/-! ### Base64url -/

theorem b64Value_b64Letter {n : ℕ} (h : n < 64) : b64Value (b64Letter n) = some n := by
  revert n; decide

theorem isWhite_b64Letter {n : ℕ} (h : n < 64) : isWhite (b64Letter n) = false := by
  revert n; decide

def b64Values : Bytes → List ℕ
  | [] => []
  | [a] => [a.toNat / 4, a.toNat % 4 * 16]
  | [a, b] => [a.toNat / 4, a.toNat % 4 * 16 + b.toNat / 16, b.toNat % 16 * 4]
  | a :: b :: c :: rest =>
    a.toNat / 4 :: (a.toNat % 4 * 16 + b.toNat / 16) :: (b.toNat % 16 * 4 + c.toNat / 64) ::
      c.toNat % 64 :: b64Values rest

theorem b64Chars_eq (b : Bytes) : b64Chars b = (b64Values b).map b64Letter := by
  fun_induction b64Values b <;> simp_all [b64Chars]

theorem b64Values_lt (b : Bytes) : ∀ n ∈ b64Values b, n < 64 := by
  fun_induction b64Values b with
  | case1 => simp
  | case2 a => have := a.toNat_lt; simp; omega
  | case3 a b => have := a.toNat_lt; have := b.toNat_lt; simp; omega
  | case4 a b c rest ih =>
    have := a.toNat_lt; have := b.toNat_lt; have := c.toNat_lt
    simp only [List.mem_cons, forall_eq_or_imp]
    exact ⟨by omega, by omega, by omega, by omega, ih⟩

theorem b64Bytes_b64Values (b : Bytes) : b64Bytes (b64Values b) = some b := by
  fun_induction b64Values b with
  | case1 => rfl
  | case2 a =>
    simp only [b64Bytes]
    rw [if_pos (by omega), show a.toNat / 4 * 4 + a.toNat % 4 * 16 / 16 = a.toNat by omega]
    simp
  | case3 a b =>
    have := a.toNat_lt; have := b.toNat_lt
    simp only [b64Bytes]
    rw [if_pos (by omega), show a.toNat / 4 * 4 + (a.toNat % 4 * 16 + b.toNat / 16) / 16 = a.toNat by omega,
      show (a.toNat % 4 * 16 + b.toNat / 16) % 16 * 16 + b.toNat % 16 * 4 / 4 = b.toNat by omega]
    simp
  | case4 a b c rest ih =>
    have := a.toNat_lt; have := b.toNat_lt; have := c.toNat_lt
    simp only [b64Bytes, ih]
    rw [show a.toNat / 4 * 4 + (a.toNat % 4 * 16 + b.toNat / 16) / 16 = a.toNat by omega,
      show (a.toNat % 4 * 16 + b.toNat / 16) % 16 * 16 + (b.toNat % 16 * 4 + c.toNat / 64) / 4 = b.toNat by omega,
      show (b.toNat % 16 * 4 + c.toNat / 64) % 4 * 64 + c.toNat % 64 = c.toNat by omega]
    simp

theorem mapM_b64Value {ns : List ℕ} (h : ∀ n ∈ ns, n < 64) : (ns.map b64Letter).mapM b64Value = some ns := by
  induction ns with
  | nil => rfl
  | cons n ns ih =>
    simp only [List.mem_cons, forall_eq_or_imp] at h
    simp [b64Value_b64Letter h.1, ih h.2]

theorem b64Decode_b64Encode (b : Bytes) : b64Decode (b64Encode b) = some b := by
  simp only [b64Decode, b64Encode, String.toList_ofList, b64Chars_eq, mapM_b64Value (b64Values_lt b)]
  exact b64Bytes_b64Values b

theorem trim_b64Encode (b : Bytes) : trim (b64Encode b) = b64Encode b := by
  have hdrop {cs : List Char} (h : ∀ c ∈ cs, isWhite c = false) : cs.dropWhile isWhite = cs := by
    cases cs <;> simp_all
  have hplain : ∀ c ∈ b64Chars b, isWhite c = false := by
    simp only [b64Chars_eq, List.mem_map]
    rintro _ ⟨n, hn, rfl⟩
    exact isWhite_b64Letter (b64Values_lt b n hn)
  rw [trim, b64Encode, String.toList_ofList, hdrop hplain, hdrop (by simpa using hplain), List.reverse_reverse]

end EuWallet.Codec
