import EuWallet.Formats.SdJwt

/-! # Values at claim paths

A claim path names a place in a JSON document. `valueAt` reads the value there; `Everywhere Q` says that
every object of a document, at any depth, satisfies `Q`. -/

namespace EuWallet.Formats

open Codec Lib

abbrev ClaimPath := List ClaimPathElement

def child : Json → ClaimPathElement → Option Json
  | .obj members, .name name => members.lookup name
  | .arr elements, .index i => elements[i]?
  | _, _ => none

def valueAt : Json → ClaimPath → Option Json
  | value, [] => some value
  | value, step :: rest => (child value step).bind (valueAt · rest)

/-- Every object of a document satisfies `Q`. -/
def Everywhere (Q : List (String × Json) → Prop) (value : Json) : Prop :=
  ∀ path members, valueAt value path = some (.obj members) → Q members

/-- The members of every object are in the order of their names, as `serde_json::Map` keeps them. -/
def Ordered (value : Json) : Prop := Everywhere (fun m => (m.map Prod.fst).Pairwise (· < ·)) value

def reservedNames : List String := ["_sd", "_sd_alg", "..."]

/-- No object has a member with a reserved name. -/
def Clean (value : Json) : Prop :=
  Everywhere (fun m => ∀ name ∈ reservedNames, Json.hasKey m name = false) value

section Values

variable {Q : List (String × Json) → Prop} {value c : Json} {step : ClaimPathElement}

@[simp] theorem valueAt_nil : valueAt value [] = some value := rfl

theorem valueAt_cons {rest : ClaimPath} :
    valueAt value (step :: rest) = (child value step).bind (valueAt · rest) := rfl

theorem everywhere_iff : Everywhere Q value ↔ (∀ members, value = .obj members → Q members) ∧
      ∀ step c, child value step = some c → Everywhere Q c := by
  constructor
  · intro h
    refine ⟨fun members heq => h [] members (by rw [heq]; rfl), fun step c hc path members hat => ?_⟩
    exact h (step :: path) members (by rw [valueAt_cons, hc]; exact hat)
  · rintro ⟨hself, hchild⟩ path members hat
    cases path with
    | nil => exact hself members (Option.some.inj hat)
    | cons step rest =>
      obtain ⟨c, hc, hrest⟩ := Option.bind_eq_some_iff.mp hat
      exact hchild step c hc rest members hrest

variable {members : List (String × Json)} {elements : List Json}

theorem Everywhere.self (h : Everywhere Q (.obj members)) :
    Q members := (everywhere_iff.mp h).1 members rfl

theorem Everywhere.member {name : String} (h : Everywhere Q (.obj members))
    (hc : members.lookup name = some c) : Everywhere Q c :=
  (everywhere_iff.mp h).2 (.name name) c hc

theorem Everywhere.element (h : Everywhere Q (.arr elements)) (hc : c ∈ elements) : Everywhere Q c := by
  obtain ⟨i, hi⟩ := List.mem_iff_getElem?.mp hc
  exact (everywhere_iff.mp h).2 (.index i) c hi

theorem Everywhere.obj (hself : Q members) (hmembers : ∀ kv ∈ members, Everywhere Q kv.2) :
    Everywhere Q (.obj members) := by
  refine everywhere_iff.mpr ⟨?_, ?_⟩
  · rintro _ ⟨⟩
    exact hself
  · rintro (name | i) c hc
    · exact hmembers _ (OrdMap.mem_of_lookup hc)
    · cases hc

theorem Everywhere.arr (h : ∀ v ∈ elements, Everywhere Q v) : Everywhere Q (.arr elements) := by
  refine everywhere_iff.mpr ⟨by rintro _ ⟨⟩, ?_⟩
  rintro (name | i) c hc
  · cases hc
  · exact h c (List.mem_of_getElem? hc)

end Values

/-! ### Scalars -/

/-- A value that is neither object nor array. -/
def IsScalar : Json → Prop
  | .obj _ | .arr _ => False
  | _ => True

theorem IsScalar.child {value : Json} (h : IsScalar value) (step : ClaimPathElement) : child value step = none := by
  cases value <;> first | rfl | exact h.elim

theorem IsScalar.everywhere {value : Json} (h : IsScalar value) {Q : List (String × Json) → Prop} :
    Everywhere Q value := by
  refine everywhere_iff.mpr ⟨?_, fun step c hc => ?_⟩
  · rintro members rfl
    exact h.elim
  · rw [h.child step] at hc
    cases hc

end EuWallet.Formats
