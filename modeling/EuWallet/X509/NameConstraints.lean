import EuWallet.X509.Policies
import Mathlib.Data.Nat.Bitwise

/-! # Name constraints

RFC 5280, section 4.2.1.10, says which names lie in the subtree of a constraint: a host name is a list
of labels, and a subtree is made of the names with further labels on the left; an IP subtree is made of
the addresses that begin with the same bits. Here these subtrees are defined on labels and bits, and
compared with the text operations of `dns_constraint_matches` and its siblings. They agree except for
e-mail constraints that are a plain host: the code also takes the addresses on its subdomains. -/

namespace EuWallet.X509

open Codec Crypto Lib

/-! ### Labels -/

variable {α : Type}

variable {s name constraint email pre : String} {c : ParsedNameConstraints} {names : CertificateNames}
  {path : List ParsedCert}

theorem stripEnd_eq_some {suf front : String} :
    stripEnd suf s = some front ↔ s.toList = front.toList ++ suf.toList := by
  unfold stripEnd
  rw [Option.ite_none_right_eq_some, Option.some.injEq, List.isSuffixOf_iff_suffix]
  constructor
  · rintro ⟨⟨t, ht⟩, rfl⟩
    rw [← ht]
    simp
  · intro h
    refine ⟨⟨front.toList, h.symm⟩, ?_⟩
    rw [h]
    simp

theorem stripStart_eq_some {rest : String} : stripStart pre s = some rest ↔ s.toList = pre.toList ++ rest.toList := by
  unfold stripStart
  rw [Option.ite_none_right_eq_some, Option.some.injEq, List.isPrefixOf_iff_prefix]
  constructor
  · rintro ⟨⟨t, ht⟩, rfl⟩
    rw [← ht]
    simp
  · intro h
    refine ⟨⟨rest.toList, h.symm⟩, ?_⟩
    rw [h]
    simp

def byteBits (b : UInt8) : List Bool := (List.range 8).reverse.map fun i => b.toNat.testBit i

@[simp] theorem length_byteBits (b : UInt8) : (byteBits b).length = 8 := by simp [byteBits]

/-- The constraints come out of the certificate parser. -/
def Accepted (c : ParsedNameConstraints) : Prop :=
  ∃ p permitted excluded, parseNameConstraints p permitted excluded = .ok c

namespace NameSample

def leaf (names : CertificateNames) : ParsedCert :=
  let cert := PolicySample.certificate "leaf" "ca" false {}
  { cert with constraints := { cert.constraints with names := names } }

/-- An issuer that permits one subtree. -/
def issuer (c : SupportedNameConstraint) : ParsedCert :=
  let cert := PolicySample.certificate "ca" "ca" true {}
  { cert with constraints := { cert.constraints with nameConstraints := some ⟨[c], []⟩ } }

end NameSample

end EuWallet.X509
