import EuWallet.Codec.Numbers
import EuWallet.X509.NameConstraints

/-! # The identity of a credential issuer

An issuer is known by the one HTTPS origin in its certificate, and identities are compared as texts. So an origin
should have one spelling: the host in lower-case labels, the port in its shortest decimal form and left out if it is
443. `valid_https_issuer_identity` reads the port with `u16::from_str`, which takes a plus sign; without one, an
identity it accepts is the spelling of its origin. -/

namespace EuWallet.X509

open Codec

/-- A host name of at least two labels in lower case. -/
structure LowerDnsName (host : String) : Prop where
  several : 2 ≤ (splitStr '.' host).length
  short : host.utf8ByteSize ≤ 253
  labels : ∀ label ∈ splitStr '.' host, 0 < (utf8 label).length ∧ (utf8 label).length ≤ 63 ∧
    (∀ b ∈ utf8 label, isAsciiLower b ∨ isAsciiDigit b ∨ b = 45) ∧
    (utf8 label).head? ≠ some 45 ∧ (utf8 label).getLast? ≠ some 45

structure Origin where
  host : String
  port : ℕ
deriving DecidableEq

/-- The one spelling of an origin. -/
def Origin.spelling (o : Origin) : String :=
  "https://" ++ o.host ++ if o.port = 443 then "" else ":" ++ toString o.port

structure Origin.Valid (o : Origin) : Prop where
  host : LowerDnsName o.host
  positive : 0 < o.port
  small : o.port < 65536

/-- The host and the port an identity names, read as the check reads them. -/
def originOf (identity : String) : Option Origin := do
  let authority ← stripStart "https://" identity
  match rsplitOnce ':' authority with
  | none => some ⟨authority, 443⟩
  | some (host, port) => (parseU16 port).map (⟨host, ·⟩)

/-- The identity is the spelling of an origin. -/
def Canonical (identity : String) : Prop := ∃ o : Origin, o.Valid ∧ identity = o.spelling

/-! ### The port -/

theorem digitChar_digit {c : Char} (h : c.isDigit = true) : Nat.digitChar (c.toNat - 48) = c ∧ c.toNat - 48 < 10 := by
  simp only [Char.isDigit, ge_iff_le, Bool.and_eq_true, decide_eq_true_eq, UInt32.le_iff_toNat_le] at h
  have hlow : 48 ≤ c.toNat := h.1
  have hhigh : c.toNat < 58 := Nat.lt_succ_of_le h.2
  have hchar : ∀ n < 58, 48 ≤ n → (n - 48).digitChar = Char.ofNat n := by decide
  exact ⟨(hchar _ hhigh hlow).trans (Char.ofNat_toNat c), by omega⟩

theorem foldl_bind_none {f : ℕ → Char → Option ℕ} (cs : List Char) :
    cs.foldl (fun acc c => acc.bind (f · c)) none = none := by
  induction cs with
  | nil => rfl
  | cons c cs ih => exact ih

/-- Digits that follow a positive number are its further digits. -/
theorem toDigits_foldl {cs : List Char} {m n : ℕ} (hm : 0 < m) (h : cs.foldl (fun acc c => acc.bind fun n =>
      if c.isDigit then some (10 * n + (c.toNat - 48)) else none) (some m) = some n) :
    Nat.toDigits 10 n = Nat.toDigits 10 m ++ cs := by
  induction cs generalizing m with
  | nil =>
    obtain rfl := Option.some.inj h
    simp
  | cons c cs ih =>
    rw [List.foldl_cons, Option.bind_some] at h
    split_ifs at h with hdigit
    · obtain ⟨hchar, hlt⟩ := digitChar_digit hdigit
      rw [ih (by omega) h, ← Nat.toDigits_append_toDigits (by decide) hm hlt, Nat.toDigits_of_lt_base hlt, hchar,
        List.append_assoc, List.singleton_append]
    · rw [foldl_bind_none] at h
      cases h

/-- A number without a sign or a leading zero is written in its shortest form. -/
theorem eq_toString_of_parseU16 {port : String} {n : ℕ} (h : parseU16 port = some n) (hn : n ≠ 0)
    (hplus : '+' ∉ port.toList) (hzero : ¬ (1 < port.utf8ByteSize ∧ startsWith "0" port = true)) :
    port = toString n ∧ n < 65536 := by
  obtain ⟨hdecimal, hlt⟩ := Option.filter_eq_some_iff.mp h
  refine ⟨?_, by simpa using hlt⟩
  rw [← String.toList_inj, Nat.toString_eq_repr, Nat.toList_repr]
  cases htext : port.toList with
  | nil =>
    rw [htext] at hdecimal
    cases hdecimal
  | cons c cs =>
    have hc : c ≠ '+' := by
      rintro rfl
      simp [htext] at hplus
    have hdigits : decimal (c :: cs) = some n := by
      rw [htext] at hdecimal
      split at hdecimal
      · next heq => exact absurd (List.cons.inj heq).1 hc
      · exact hdecimal
    simp only [decimal, List.foldl_cons, Option.bind_some] at hdigits
    split_ifs at hdigits with hdigit
    · obtain ⟨hchar, hlt⟩ := digitChar_digit hdigit
      rcases Nat.eq_zero_or_pos (c.toNat - 48) with hd | hd
      · -- A leading zero stands alone, and the port is not zero.
        have hc0 : c = '0' := by rw [← hchar, hd]; rfl
        cases cs with
        | nil =>
          rw [List.foldl_nil, hd] at hdigits
          exact absurd (Option.some.inj hdigits).symm hn
        | cons d cs =>
          refine absurd ⟨?_, ?_⟩ hzero
          · rw [← String.ofList_toList (s := port), htext, String.ofList_cons, String.ofList_cons]
            have hd := d.utf8Size_pos
            have hc := c.utf8Size_pos
            simp only [String.utf8ByteSize_append, String.utf8ByteSize_singleton]
            omega
          · simp [startsWith, htext, hc0]
      · rw [Nat.mul_zero, Nat.zero_add] at hdigits
        rw [toDigits_foldl hd hdigits, Nat.toDigits_of_lt_base hlt, hchar, List.singleton_append]
    · rw [foldl_bind_none] at hdigits
      cases hdigits

/-! ### The host -/

theorem lowerDnsName_of_valid {host : String} (h : validCanonicalDnsName host = true) : LowerDnsName host := by
  simp only [validCanonicalDnsName, Bool.and_eq_true, decide_eq_true_eq, List.all_eq_true] at h
  obtain ⟨⟨⟨⟨hshort, hdot⟩, -⟩, -⟩, hlabels⟩ := h
  refine ⟨?_, hshort, fun label hlabel => ?_⟩
  · obtain ⟨front, base, hhost⟩ := List.append_of_mem (List.contains_iff_mem.mp hdot)
    have hfront := List.length_pos_of_ne_nil (List.splitOn_ne_nil '.' front)
    have hbase := List.length_pos_of_ne_nil (List.splitOn_ne_nil '.' base)
    rw [splitStr, List.length_map, hhost, List.splitOn_append_cons_self, List.length_append]
    omega
  · have hlabel := hlabels label hlabel
    simp only [dnsLabel, Bool.and_eq_true, Bool.not_eq_true', decide_eq_true_eq, List.all_eq_true, Bool.or_eq_true,
      beq_iff_eq, Option.any_eq_true] at hlabel
    obtain ⟨⟨⟨⟨hne, hlen⟩, hbytes⟩, ⟨first, hfirst, hfirst'⟩⟩, ⟨last, hlast, hlast'⟩⟩ := hlabel
    have hedge {b : UInt8} (h : isAsciiAlphanumeric b = true) : b ≠ 45 := by
      rintro rfl
      cases h
    refine ⟨List.length_pos_of_ne_nil (by simpa using hne), hlen, fun b hb => ?_, ?_, ?_⟩
    · rw [← or_assoc]
      exact hbytes b hb
    · rw [hfirst]
      exact fun h => hedge hfirst' (Option.some.inj h)
    · rw [hlast]
      exact fun h => hedge hlast' (Option.some.inj h)

theorem mem_of_mem_intercalate {c sep : Char} (hc : c ≠ sep) : ∀ {parts : List (List Char)},
    c ∈ [sep].intercalate parts → ∃ part ∈ parts, c ∈ part
  | [], h => by simp at h
  | [part], h => ⟨part, by simp, by simpa using h⟩
  | part :: next :: parts, h => by
    rw [List.intercalate_cons_cons] at h
    simp only [List.mem_append, List.mem_singleton, hc, false_or, or_assoc] at h
    rcases h with h | h
    · exact ⟨part, by simp, h⟩
    · obtain ⟨found, hfound, h⟩ := mem_of_mem_intercalate hc h
      exact ⟨found, List.mem_cons_of_mem _ hfound, h⟩

theorem plus_not_mem_host {host : String} (h : LowerDnsName host) : '+' ∉ host.toList := by
  intro hplus
  have hjoin : ['.'].intercalate (host.toList.splitOn '.') = host.toList := List.intercalate_splitOn '.'
  rw [← hjoin] at hplus
  obtain ⟨label, hlabel, hplus⟩ := mem_of_mem_intercalate (by decide) hplus
  have hbyte : 43 ∈ utf8 (String.ofList label) := by
    rw [utf8_eq_flatMap, String.toList_ofList]
    exact List.mem_flatMap.mpr ⟨'+', hplus, by decide⟩
  have hbad := (h.labels _ (List.mem_map_of_mem hlabel)).2.2.1 43 hbyte
  exact absurd hbad (by decide)

/-! ### The identity -/

theorem rsplitOnce_eq_some {c : Char} {s a b : String} (h : rsplitOnce c s = some (a, b)) :
    s.toList = a.toList ++ c :: b.toList := by
  obtain ⟨hmem, hparts⟩ := Option.ite_none_right_eq_some.mp h
  obtain ⟨rfl, rfl⟩ := Prod.mk.inj (Option.some.inj hparts)
  obtain ⟨after, before, hsplit, hafter⟩ := List.eq_append_cons_of_mem (List.mem_reverse.mpr hmem)
  have hne : ∀ x ∈ after, decide (x ≠ c) = true := by
    intro x hx
    refine decide_eq_true fun hxc => hafter ?_
    rwa [← hxc]
  have hs : s.toList = before.reverse ++ c :: after.reverse := by
    rw [← List.reverse_reverse s.toList, hsplit]
    simp
  rw [hsplit, List.takeWhile_append_of_pos hne, List.dropWhile_append_of_pos hne]
  simp [hs]

/-- An accepted identity names an origin; without a plus sign it spells it. -/
theorem originOf_valid {identity : String} (h : validHttpsIssuerIdentity identity = true)
    (hplus : '+' ∉ identity.toList) : ∃ o : Origin, originOf identity = some o ∧ o.Valid ∧ identity = o.spelling := by
  unfold validHttpsIssuerIdentity at h
  split_ifs at h
  cases hstrip : stripStart "https://" identity with
  | none =>
    rw [hstrip] at h
    cases h
  | some authority =>
    have hidentity := stripStart_eq_some.mp hstrip
    rw [hstrip] at h
    dsimp only at h
    split_ifs at h
    cases hport : rsplitOnce ':' authority with
    | none =>
      simp only [hport, Bool.and_true] at h
      refine ⟨⟨authority, 443⟩, by simp [originOf, hstrip, hport], ⟨lowerDnsName_of_valid h, by simp, by simp⟩, ?_⟩
      rw [← String.toList_inj, hidentity]
      simp [Origin.spelling]
    | some parts =>
      obtain ⟨host, port⟩ := parts
      have hauthority := rsplitOnce_eq_some hport
      simp only [hport, Bool.and_eq_true, Bool.not_eq_true', Bool.and_eq_false_iff, Option.any_eq_true,
        decide_eq_true_eq] at h
      obtain ⟨hhost, hzero, n, hn, hne, hother⟩ := h
      have hsigned : '+' ∉ port.toList := by
        intro h
        refine hplus ?_
        rw [hidentity, hauthority]
        simp [h]
      obtain ⟨rfl, hsmall⟩ := eq_toString_of_parseU16 hn hne hsigned (by simpa [imp_iff_not_or] using hzero)
      refine ⟨⟨host, n⟩, by simp only [originOf, hstrip, hport, Option.bind_eq_bind,
        Option.bind_some, hn, Option.map_some], ⟨lowerDnsName_of_valid hhost, ?_, hsmall⟩, ?_⟩
      · exact Nat.pos_of_ne_zero hne
      · rw [← String.toList_inj, hidentity, hauthority]
        simp [Origin.spelling, hother, String.toList_append]

theorem plus_not_mem_spelling {o : Origin} (h : o.Valid) : '+' ∉ o.spelling.toList := by
  have hport : '+' ∉ Nat.toDigits 10 o.port := by
    intro hplus
    exact absurd (Nat.isDigit_of_mem_toDigits (by decide) (by decide) hplus) (by decide)
  unfold Origin.spelling
  split_ifs <;> simp [String.toList_append, plus_not_mem_host h.host, hport]

/-- **Issuer identities have one spelling**, exactly as far as their ports are written without a sign. -/
theorem issuer_identity_spelling_iff (u v : String) (hu : validHttpsIssuerIdentity u = true)
    (hv : validHttpsIssuerIdentity v = true) :
    (Canonical u ∧ Canonical v ∧ (originOf u = originOf v ↔ u = v)) ↔ '+' ∉ u.toList ∧ '+' ∉ v.toList := by
  constructor
  · rintro ⟨⟨o, ho, rfl⟩, ⟨o', ho', rfl⟩, -⟩
    exact ⟨plus_not_mem_spelling ho, plus_not_mem_spelling ho'⟩
  · rintro ⟨hplus, hplus'⟩
    obtain ⟨o, ho, hvalid, hspelling⟩ := originOf_valid hu hplus
    obtain ⟨o', ho', hvalid', hspelling'⟩ := originOf_valid hv hplus'
    refine ⟨⟨o, hvalid, hspelling⟩, ⟨o', hvalid', hspelling'⟩, fun h => ?_, congrArg originOf⟩
    rw [ho, ho'] at h
    rw [hspelling, hspelling', Option.some.inj h]

theorem issuer_identity_spelling_ports : Canonical "https://a.b:8443" ∧ Canonical "https://a.b" ∧
      (originOf "https://a.b:8443" = originOf "https://a.b" ↔ "https://a.b:8443" = "https://a.b") :=
  (issuer_identity_spelling_iff _ _ (by decide) (by decide)).mpr (by decide)

/-- Two accepted identities of one origin. -/
theorem issuer_identity_signed_port :
    validHttpsIssuerIdentity "https://a.b:+8443" = true ∧ validHttpsIssuerIdentity "https://a.b:8443" = true ∧
      originOf "https://a.b:+8443" = originOf "https://a.b:8443" ∧ "https://a.b:+8443" ≠ "https://a.b:8443" := by
  decide

end EuWallet.X509
