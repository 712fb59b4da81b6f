import EuWallet.Formats.ClaimPath
import EuWallet.Lib.Except
import Mathlib.Data.List.Perm.Subperm
import Mathlib.Data.String.Basic

/-! # Opening an SD-JWT

What `verify_and_process` makes of an issuer's payload. The walk over the payload is inverted loop by
loop; from that follows what one call of `process_value` records and returns, and from the call at the
root what the processed claims and the recorded disclosures are. -/

namespace EuWallet.Formats

open Codec Crypto Lib

namespace DisclosureProcessor

variable {p : Platform} {walk : Walk} {path : ClaimPath} {parent : Option String}
  {s s' : DisclosureProcessor}

/-! ### The steps of the walk -/

variable {digest : String} {value : Json} {d : Disclosure} {name : String}
    {out object : List (String × Json)} {done rest : List Json} {new more : List VerifiedDisclosure}
    {v : Json} {step : ClaimPathElement} {before : List VerifiedDisclosure} {isRoot : Bool} {levels : ℕ}

theorem encounterDigest_eq_ok : s.encounterDigest digest = .ok s' ↔
      ∃ decoded, b64Decode digest = some decoded ∧ decoded.length = 32 ∧
        s.encounteredDigests.length + 1 ≤ maxEmbeddedDigests ∧ digest ∉ s.encounteredDigests ∧
        { s with encounteredDigests := digest :: s.encounteredDigests } = s' := by
  simp only [encounterDigest, bind_eq_ok, orErr_eq_ok, guard_eq_ok, pure_eq_ok, not_lt, not_not,
    List.contains_iff_mem, ne_eq]

theorem consumeBudget_eq_ok : s.consumeBudget p value = .ok s' ↔
      s.outputBudget + (p.renderJson value).utf8ByteSize ≤ maxProcessedJsonBytes ∧
        { s with outputBudget := s.outputBudget + (p.renderJson value).utf8ByteSize } = s' := by
  simp only [consumeBudget]
  split_ifs with h
  · simp only [false_iff, not_and]
    omega
  · simp only [Except.ok.injEq]
    exact ⟨fun h' => ⟨by omega, h'⟩, fun h' => h'.2⟩

def entry (digest : String) (d : Disclosure) (path : ClaimPath) (parent : Option String) :
    VerifiedDisclosure := ⟨d.raw, digest, path, parent, d.value⟩

theorem recordDisclosure_eq_ok : s.recordDisclosure digest d path parent = .ok s' ↔ digest ∉ s.usedDisclosures ∧
        { s with
          usedDisclosures := digest :: s.usedDisclosures
          verified := s.verified ++ [entry digest d path parent] } = s' := by
  unfold recordDisclosure
  split_ifs with h
  · simp_all
  · simp only [Except.ok.injEq, entry]
    exact ⟨fun h' => ⟨by simpa using h, h'⟩, fun h' => h'.2⟩

def Opens (p : Platform) (walk : Walk) (digest : String) (d : Disclosure) (path : ClaimPath)
    (parent : Option String) (s : DisclosureProcessor) (value : Json) (s' : DisclosureProcessor) : Prop :=
  ∃ s₁ s₂, s.consumeBudget p d.value = .ok s₁ ∧ s₁.recordDisclosure digest d path parent = .ok s₂ ∧
    walk d.value path (some digest) s₂ = .ok (value, s')

theorem processMembers_cons {rest : List (String × Json)} :
    processMembers walk path parent ((name, value) :: rest) s = .ok (out, s') ↔
      ∃ v s₁ tail, walk value (path ++ [.name name]) parent s = .ok (v, s₁) ∧
        processMembers walk path parent rest s₁ = .ok (tail, s') ∧ out = (name, v) :: tail := by
  simp only [processMembers, bind_eq_ok, pure_eq_ok, Prod.mk.injEq, Prod.exists]
  constructor
  · rintro ⟨v, s₁, hv, tail, s₂, htail, rfl, rfl⟩
    exact ⟨v, s₁, tail, hv, htail, rfl⟩
  · rintro ⟨v, s₁, tail, hv, htail, rfl⟩
    exact ⟨v, s₁, hv, tail, s', htail, rfl, rfl⟩

def Addable (object : List (String × Json)) (name : String) : Prop :=
  name ∉ reservedNames ∧ Json.hasKey object name = false

theorem processDigests_cons : processDigests p walk path parent (value :: rest) object s = .ok (out, s') ↔
      ∃ digest, value.asStr = some digest ∧ ∃ s₁, s.encounterDigest digest = .ok s₁ ∧
        ((s₁.disclosureByDigest.lookup digest = none ∧
            processDigests p walk path parent rest object s₁ = .ok (out, s')) ∨
          ∃ d name v s₂, s₁.disclosureByDigest.lookup digest = some d ∧ d.name = some name ∧
            Addable object name ∧ Opens p walk digest d (path ++ [.name name]) parent s₁ v s₂ ∧
            processDigests p walk path parent rest (OrdMap.insert name v object) s₂ = .ok (out, s')) := by
  simp only [processDigests, bind_eq_ok, orErr_eq_ok]
  refine exists_congr fun digest => and_congr_right fun _ => exists_congr fun s₁ =>
    and_congr_right fun _ => ?_
  cases hlookup : s₁.disclosureByDigest.lookup digest with
  | none => simp
  | some d =>
    simp only [bind_eq_ok, orErr_eq_ok, guard_eq_ok, Opens, Addable, reservedNames, List.mem_cons,
      List.not_mem_nil, or_false, Bool.not_eq_true, reduceCtorEq, false_and, false_or, Option.some.injEq, Prod.exists]
    constructor
    · rintro ⟨name, hname, hreserved, hkey, s₂, hpay, s₃, hrecord, v, s₄, hwalk, hrest⟩
      exact ⟨d, name, v, s₄, rfl, hname, ⟨hreserved, hkey⟩, ⟨s₂, s₃, hpay, hrecord, hwalk⟩, hrest⟩
    · rintro ⟨_, name, v, s₄, rfl, hname, ⟨hreserved, hkey⟩, ⟨s₂, s₃, hpay, hrecord, hwalk⟩, hrest⟩
      exact ⟨name, hname, hreserved, hkey, s₂, hpay, s₃, hrecord, v, s₄, hwalk, hrest⟩

theorem processElements_cons {element : Json} {out : List Json} :
    processElements p walk path parent (element :: rest) done s = .ok (out, s') ↔
      (arrayPlaceholder element = .ok none ∧
        ∃ v s₁, walk element (path ++ [.index done.length]) parent s = .ok (v, s₁) ∧
          processElements p walk path parent rest (done ++ [v]) s₁ = .ok (out, s')) ∨
      ∃ digest, arrayPlaceholder element = .ok (some digest) ∧ ∃ s₁, s.encounterDigest digest = .ok s₁ ∧
        ((s₁.disclosureByDigest.lookup digest = none ∧
            processElements p walk path parent rest done s₁ = .ok (out, s')) ∨
          ∃ d v s₂, s₁.disclosureByDigest.lookup digest = some d ∧ d.name = none ∧
            Opens p walk digest d (path ++ [.index done.length]) parent s₁ v s₂ ∧
            processElements p walk path parent rest (done ++ [v]) s₂ = .ok (out, s')) := by
  rw [processElements]
  cases hplace : arrayPlaceholder element with
  | error e => simp [bind, Except.bind]
  | ok place =>
    cases place with
    | none => simp only [bind_eq_ok, Except.ok.injEq, exists_eq_left', Prod.exists, true_and,
        reduceCtorEq, false_and, exists_false, or_false]
    | some digest =>
      simp only [bind_eq_ok, Except.ok.injEq, exists_eq_left', reduceCtorEq, false_and, false_or,
        Option.some.injEq, exists_and_left]
      refine exists_congr fun s₁ => and_congr_right fun _ => ?_
      cases hlookup : s₁.disclosureByDigest.lookup digest with
      | none => simp
      | some d =>
        simp only [bind_eq_ok, guard_eq_ok, Opens, reduceCtorEq, false_and, false_or,
          Option.some.injEq, exists_eq_left', Option.not_isSome_iff_eq_none, Prod.exists]
        constructor
        · rintro ⟨hname, s₂, hpay, s₃, hrecord, v, s₄, hwalk, hrest⟩
          exact ⟨hname, v, s₄, ⟨s₂, s₃, hpay, hrecord, hwalk⟩, hrest⟩
        · rintro ⟨hname, v, s₄, ⟨s₂, s₃, hpay, hrecord, hwalk⟩, hrest⟩
          exact ⟨hname, s₂, hpay, s₃, hrecord, v, s₄, hwalk, hrest⟩

/-! ### What a part of the walk does to the processor -/

/-- A part of the walk that recorded the given disclosures. -/
structure Advances (s s' : DisclosureProcessor) (new : List VerifiedDisclosure) : Prop where
  index : s'.disclosureByDigest = s.disclosureByDigest
  verified : s'.verified = s.verified ++ new
  used : s'.usedDisclosures = (new.map (·.digest)).reverse ++ s.usedDisclosures
  nodup : s.usedDisclosures.Nodup → s'.usedDisclosures.Nodup
  sources : ∀ r ∈ new, ∃ d, s.disclosureByDigest.lookup r.digest = some d ∧ d.raw = r.raw ∧
    d.value = r.value
  encountered : s.encounteredDigests <:+ s'.encounteredDigests
  budget : s.outputBudget ≤ s'.outputBudget

theorem Advances.refl (s : DisclosureProcessor) : Advances s s [] where
  index := rfl
  verified := (List.append_nil _).symm
  used := rfl
  nodup := id
  sources := by simp
  encountered := List.suffix_refl _
  budget := le_refl _

theorem Advances.trans {s₁ s₂ s₃ : DisclosureProcessor} (h : Advances s₁ s₂ new)
    (h' : Advances s₂ s₃ more) : Advances s₁ s₃ (new ++ more) where
  index := h'.index.trans h.index
  verified := by rw [h'.verified, h.verified, List.append_assoc]
  used := by rw [h'.used, h.used, List.map_append, List.reverse_append, List.append_assoc]
  nodup := h'.nodup ∘ h.nodup
  sources := by
    intro r hr
    rcases List.mem_append.mp hr with hr | hr
    · exact h.sources r hr
    · exact h.index ▸ h'.sources r hr
  encountered := h.encountered.trans h'.encountered
  budget := h.budget.trans h'.budget

theorem encounterDigest_advances (h : s.encounterDigest digest = .ok s') : Advances s s' [] := by
  obtain ⟨_, -, -, -, -, rfl⟩ := encounterDigest_eq_ok.mp h
  exact { Advances.refl s with encountered := List.suffix_cons _ _ }

theorem recordDisclosure_advances {s₁ : DisclosureProcessor} (hlookup : s.disclosureByDigest.lookup digest = some d)
    (hpay : s.consumeBudget p d.value = .ok s₁) (hrecord : s₁.recordDisclosure digest d path parent = .ok s') :
    Advances s s' [entry digest d path parent] := by
  obtain ⟨-, rfl⟩ := consumeBudget_eq_ok.mp hpay
  obtain ⟨hfresh, rfl⟩ := recordDisclosure_eq_ok.mp hrecord
  exact {
    index := rfl
    verified := rfl
    used := rfl
    nodup := fun hnodup => List.nodup_cons.mpr ⟨hfresh, hnodup⟩
    sources := by simpa [entry] using ⟨d, hlookup, rfl, rfl⟩
    encountered := List.suffix_refl _
    budget := Nat.le_add_right _ _ }

/-! ### What the records say about the document -/

def Above (e r : VerifiedDisclosure) : Prop := e.path <+: r.path ∧ e.path ≠ r.path

/-- The parent digest of a record is that of the lowest of the records above it; if there is none, it
is the one the walk was given. -/
def Encloses (records : List VerifiedDisclosure) (parent : Option String) (r : VerifiedDisclosure) : Prop :=
  (∃ e ∈ records, r.parentDigest = some e.digest ∧ Above e r ∧
    ∀ e' ∈ records, Above e' r → e'.path <+: e.path) ∨
  (r.parentDigest = parent ∧ ∀ e ∈ records, ¬ Above e r)

structure Part (path : ClaimPath) (parent : Option String) (value : Json)
    (new : List VerifiedDisclosure) : Prop where
  below : ∀ r ∈ new, ∃ rest, r.path = path ++ rest ∧ (valueAt value rest).isSome
  distinct : (new.map (·.path)).Nodup
  enclosed : ∀ r ∈ new, Encloses new parent r
  clean : Clean value
  ordered : Ordered value

/-- What the records say about an object or array while its children are put into it. -/
structure Holds (path : ClaimPath) (parent : Option String) (value : Json)
    (new : List VerifiedDisclosure) : Prop where
  below : ∀ r ∈ new, ∃ step rest, r.path = path ++ step :: rest ∧
    (valueAt value (step :: rest)).isSome
  distinct : (new.map (·.path)).Nodup
  enclosed : ∀ r ∈ new, Encloses new parent r
  clean : ∀ step c, child value step = some c → Clean c
  ordered : ∀ step c, child value step = some c → Ordered c

/-- The records lie at steps a value does not have. -/
def Fresh (path : ClaimPath) (value : Json) (new : List VerifiedDisclosure) : Prop :=
  ∀ r ∈ new, ∃ step rest, r.path = path ++ step :: rest ∧ child value step = none

theorem Fresh.append (h : Fresh path value new) (h' : Fresh path value more) : Fresh path value (new ++ more) := by
  intro r hr
  rcases List.mem_append.mp hr with hr | hr
  · exact h r hr
  · exact h' r hr

/-- The records of a place that is not there yet. -/
theorem Part.fresh (h : Part (path ++ [step]) parent v new) (hfree : child value step = none) :
    Fresh path value new := by
  intro r hr
  obtain ⟨rest, hpath, -⟩ := h.below r hr
  exact ⟨step, rest, by simpa using hpath, hfree⟩

theorem Fresh.mono {value' : Json} (h : Fresh path value' new)
    (hfree : ∀ step, child value' step = none → child value step = none) :
    Fresh path value new := by
  intro r hr
  obtain ⟨step, rest, hpath, hnone⟩ := h r hr
  exact ⟨step, rest, hpath, hfree step hnone⟩

theorem Encloses.of_mem_iff {records records' : List VerifiedDisclosure} {r : VerifiedDisclosure}
    (h : ∀ e, Above e r → (e ∈ records ↔ e ∈ records')) (henc : Encloses records parent r) :
    Encloses records' parent r := by
  rcases henc with ⟨e, he, hparent, habove, hlowest⟩ | ⟨hparent, hnone⟩
  · exact .inl ⟨e, (h e habove).mp he, hparent, habove,
      fun e' he' ha => hlowest e' ((h e' ha).mpr he') ha⟩
  · exact .inr ⟨hparent, fun e he ha => hnone e ((h e ha).mpr he) ha⟩

theorem Holds.perm {new' : List VerifiedDisclosure} (h : Holds path parent value new)
    (hperm : new.Perm new') : Holds path parent value new' where
  below := fun r hr => h.below r (hperm.mem_iff.mpr hr)
  distinct := (hperm.map _).nodup_iff.mp h.distinct
  enclosed := fun r hr => (h.enclosed r (hperm.mem_iff.mpr hr)).of_mem_iff fun _ _ => hperm.mem_iff
  clean := h.clean
  ordered := h.ordered

/-- A value without children, and no records. -/
theorem Holds.leaf (h : ∀ step, child value step = none) : Holds path parent value [] where
  below := by simp
  distinct := List.nodup_nil
  enclosed := by simp
  clean := fun step c hc => by rw [h step] at hc; cases hc
  ordered := fun step c hc => by rw [h step] at hc; cases hc

theorem Holds.part (h : Holds path parent value new) (hclean : Clean value) (hordered : Ordered value) :
    Part path parent value new where
  below := by
    intro r hr
    obtain ⟨step, rest, hpath, hat⟩ := h.below r hr
    exact ⟨step :: rest, hpath, hat⟩
  distinct := h.distinct
  enclosed := h.enclosed
  clean := hclean
  ordered := hordered

theorem Holds.disclosed (h : Holds path (some digest) value new) (hclean : Clean value)
    (hordered : Ordered value) : Part path parent value (entry digest d path parent :: new) := by
  have hbelow : ∀ r ∈ new, Above (entry digest d path parent) r := by
    intro r hr
    obtain ⟨step, rest, hpath, -⟩ := h.below r hr
    refine ⟨⟨step :: rest, hpath.symm⟩, fun heq => ?_⟩
    have hlength := congrArg List.length (heq.trans hpath)
    simp [entry] at hlength
  have hirrefl : ∀ e ∈ new, ¬ Above e (entry digest d path parent) := by
    intro e he habove
    have hpath := hbelow e he
    exact hpath.2 (hpath.1.eq_of_length (le_antisymm hpath.1.length_le habove.1.length_le))
  refine ⟨?_, ?_, ?_, hclean, hordered⟩
  · intro r hr
    rcases List.mem_cons.mp hr with rfl | hr
    · exact ⟨[], (List.append_nil path).symm, rfl⟩
    · obtain ⟨step, rest, hpath, hat⟩ := h.below r hr
      exact ⟨step :: rest, hpath, hat⟩
  · rw [List.map_cons, List.nodup_cons]
    refine ⟨fun hmem => ?_, h.distinct⟩
    obtain ⟨r, hr, hpath⟩ := List.mem_map.mp hmem
    exact (hbelow r hr).2 hpath.symm
  · intro r hr
    rcases List.mem_cons.mp hr with rfl | hr
    · refine .inr ⟨rfl, fun e he habove => ?_⟩
      rcases List.mem_cons.mp he with rfl | he
      · exact habove.2 rfl
      · exact hirrefl e he habove
    · rcases h.enclosed r hr with ⟨e, he, hparent, habove, hlowest⟩ | ⟨hparent, hnone⟩
      · refine .inl ⟨e, List.mem_cons_of_mem _ he, hparent, habove, fun e' he' ha => ?_⟩
        rcases List.mem_cons.mp he' with rfl | he'
        · exact (hbelow e he).1
        · exact hlowest e' he' ha
      · refine .inl ⟨_, List.mem_cons_self, hparent, hbelow r hr, fun e' he' ha => ?_⟩
        rcases List.mem_cons.mp he' with rfl | he'
        · exact List.prefix_refl _
        · exact absurd ha (hnone e' he')

theorem Holds.grow {value' : Json} (h : Holds path parent value new)
    (hpart : Part (path ++ [step]) parent v more) (hfree : child value step = none)
    (hstep : child value' step = some v) (hother : ∀ other, other ≠ step → child value' other = child value other) :
    Holds path parent value' (new ++ more) := by
  have hold : ∀ r ∈ new, ∃ other rest, other ≠ step ∧ r.path = path ++ other :: rest ∧
      (valueAt value' (other :: rest)).isSome := by
    intro r hr
    obtain ⟨other, rest, hpath, hat⟩ := h.below r hr
    have hne : other ≠ step := by
      rintro rfl
      simp [valueAt_cons, hfree] at hat
    exact ⟨other, rest, hne, hpath, by rwa [valueAt_cons, hother other hne, ← valueAt_cons]⟩
  have hmore : ∀ r ∈ more, ∃ rest, r.path = path ++ step :: rest ∧ (valueAt value' (step :: rest)).isSome := by
    intro r hr
    obtain ⟨rest, hpath, hat⟩ := hpart.below r hr
    refine ⟨rest, by simpa using hpath, ?_⟩
    rwa [valueAt_cons, hstep, Option.bind_some]
  -- a record of one child is never above a record of another
  have happart : ∀ r ∈ new, ∀ e ∈ more, ¬ e.path <+: r.path ∧ ¬ r.path <+: e.path := by
    intro r hr e he
    obtain ⟨other, rest, hne, hpath, -⟩ := hold r hr
    obtain ⟨rest', hpath', -⟩ := hmore e he
    rw [hpath, hpath', List.prefix_append_right_inj, List.prefix_append_right_inj,
      List.cons_prefix_cons, List.cons_prefix_cons]
    exact ⟨fun hpre => hne hpre.1.symm, fun hpre => hne hpre.1⟩
  refine ⟨?_, ?_, ?_, ?_, ?_⟩
  · intro r hr
    rcases List.mem_append.mp hr with hr | hr
    · obtain ⟨other, rest, -, hpath, hat⟩ := hold r hr
      exact ⟨other, rest, hpath, hat⟩
    · obtain ⟨rest, hpath, hat⟩ := hmore r hr
      exact ⟨step, rest, hpath, hat⟩
  · rw [List.map_append]
    refine List.nodup_append.mpr ⟨h.distinct, hpart.distinct, ?_⟩
    rintro q hq q' hq' rfl
    obtain ⟨r, hr, rfl⟩ := List.mem_map.mp hq
    obtain ⟨e, he, heq⟩ := List.mem_map.mp hq'
    exact (happart r hr e he).1 (heq ▸ List.prefix_refl _)
  · intro r hr
    rcases List.mem_append.mp hr with hr | hr
    · refine (h.enclosed r hr).of_mem_iff fun e habove => ?_
      rw [List.mem_append, or_iff_left fun he => (happart r hr e he).1 habove.1]
    · refine (hpart.enclosed r hr).of_mem_iff fun e habove => ?_
      rw [List.mem_append, or_iff_right fun he => (happart e he r hr).2 habove.1]
  · intro other c hc
    by_cases heq : other = step
    · rw [heq, hstep] at hc
      exact Option.some.inj hc ▸ hpart.clean
    · exact h.clean other c (hother other heq ▸ hc)
  · intro other c hc
    by_cases heq : other = step
    · rw [heq, hstep] at hc
      exact Option.some.inj hc ▸ hpart.ordered
    · exact h.ordered other c (hother other heq ▸ hc)

/-! ### Children that are put in -/

structure Tidy (object : List (String × Json)) : Prop where
  sorted : (object.map Prod.fst).Pairwise (· < ·)
  unreserved : ∀ name ∈ reservedNames, Json.hasKey object name = false

theorem Tidy.insert (h : Tidy object) (v : Json) (hname : Addable object name) :
    Tidy (OrdMap.insert name v object) := by
  refine ⟨OrdMap.insert_sorted h.sorted, fun reserved hreserved => ?_⟩
  have hne : reserved ≠ name := by
    rintro rfl
    exact hname.1 hreserved
  rw [Json.hasKey, OrdMap.lookup_insert, if_neg hne]
  exact h.unreserved reserved hreserved

theorem Holds.insert (h : Holds path parent (.obj object) before)
    (hpart : Part (path ++ [.name name]) parent v more) (hfree : object.lookup name = none) :
    Holds path parent (.obj (OrdMap.insert name v object)) (before ++ more) := by
  refine h.grow hpart hfree ?_ ?_
  · show (OrdMap.insert name v object).lookup name = _
    rw [OrdMap.lookup_insert, if_pos rfl]
  · rintro (other | i) hne
    · have hother : other ≠ name := fun heq => hne (congrArg _ heq)
      show (OrdMap.insert name v object).lookup other = _
      rw [OrdMap.lookup_insert, if_neg hother]
      rfl
    · rfl

theorem lookup_insert_eq_none {other : String} :
    (OrdMap.insert name v object).lookup other = none ↔ other ≠ name ∧ object.lookup other = none := by
  rw [OrdMap.lookup_insert]
  split_ifs with h <;> simp [h]

theorem child_push (hnone : child (.arr (done ++ [v])) step = none) : child (.arr done) step = none := by
  cases step with
  | name => rfl
  | index i =>
    have hi : (done ++ [v]).length ≤ i := List.getElem?_eq_none_iff.mp hnone
    rw [List.length_append] at hi
    exact List.getElem?_eq_none (by omega)

/-- An element is put at the end of an array. -/
theorem Holds.push (h : Holds path parent (.arr done) before)
    (hpart : Part (path ++ [.index done.length]) parent v more) :
    Holds path parent (.arr (done ++ [v])) (before ++ more) := by
  refine h.grow hpart (by simp [child]) (by simp [child]) ?_
  rintro (name | i) hne
  · rfl
  · have hi : i ≠ done.length := fun heq => hne (congrArg _ heq)
    show (done ++ [v])[i]? = done[i]?
    rcases Nat.lt_or_gt_of_ne hi with hlt | hgt
    · exact List.getElem?_append_left hlt
    · rw [List.getElem?_eq_none (by simp; omega), List.getElem?_eq_none (by omega)]

/-! ### The cases of the walk -/

/-- What is left of an object when the members selective disclosure uses are taken out. -/
def permanent (object : List (String × Json)) : List (String × Json) :=
  OrdMap.erase "_sd" (OrdMap.erase "_sd_alg" object)

theorem permanent_sublist (object : List (String × Json)) : (permanent object).Sublist object :=
  List.filter_sublist.trans List.filter_sublist

theorem lookup_permanent (object : List (String × Json)) (name : String) : (permanent object).lookup name =
    if name = "_sd" then none else if name = "_sd_alg" then none else object.lookup name := by
  rw [permanent, OrdMap.lookup_erase, OrdMap.lookup_erase]

theorem permanent_ordered (h : Ordered (.obj object)) :
    ((permanent object).map Prod.fst).Pairwise (· < ·) ∧ ∀ kv ∈ permanent object, Ordered kv.2 := by
  have hsublist := permanent_sublist object
  refine ⟨h.self.sublist (hsublist.map _), fun kv hkv => ?_⟩
  exact h.member (OrdMap.lookup_of_mem h.self (hsublist.subset hkv))

/-- The permanent members, whatever became of their values, have no reserved name. -/
theorem tidy_permanent {kept : List (String × Json)} (hsorted : ((permanent object).map Prod.fst).Pairwise (· < ·))
    (hplace : Json.hasKey object "..." = false)
    (hnames : kept.map Prod.fst = (permanent object).map Prod.fst) : Tidy kept := by
  have hlookup (name : String) : Json.hasKey kept name = Json.hasKey (permanent object) name := by
    rw [Json.hasKey, Json.hasKey, Bool.eq_iff_iff, Option.isSome_iff_ne_none, Option.isSome_iff_ne_none,
      ne_eq, ne_eq, OrdMap.lookup_eq_none, OrdMap.lookup_eq_none, hnames]
  refine ⟨by rwa [hnames], fun name hname => ?_⟩
  rw [hlookup, Json.hasKey, lookup_permanent]
  simp only [reservedNames, List.mem_cons, List.not_mem_nil, or_false] at hname
  rcases hname with rfl | rfl | rfl
  · rfl
  · rfl
  · exact hplace

theorem processValue_obj : processValue p (levels + 1) isRoot (.obj object) path parent s = .ok (v, s') ↔
      (isRoot = false → Json.hasKey object "_sd_alg" = false) ∧ Json.hasKey object "..." = false ∧
        ∃ digests kept s₁ out, digestValues object = .ok digests ∧
          processMembers (processValue p levels false) path parent (permanent object) s = .ok (kept, s₁) ∧
          processDigests p (processValue p levels false) path parent digests kept s₁ = .ok (out, s') ∧
          v = .obj out := by
  have hsd : (OrdMap.erase "_sd_alg" object).lookup "_sd" = object.lookup "_sd" := by
    rw [OrdMap.lookup_erase, if_neg (by decide)]
  have hdots : Json.hasKey (OrdMap.erase "_sd_alg" object) "..." = Json.hasKey object "..." := by
    rw [Json.hasKey, OrdMap.lookup_erase, if_neg (by decide)]
    rfl
  have hdigests : digestValues (OrdMap.erase "_sd_alg" object) = digestValues object := by
    simp [digestValues, hsd]
  simp only [processValue, guard_eq_ok, bind_eq_ok, hdots, hdigests, pure_eq_ok, Prod.mk.injEq, Prod.exists,
    Bool.not_eq_true, Bool.and_eq_true, Bool.not_eq_true', not_and, permanent]
  constructor
  · rintro ⟨halg, hplace, digests, hvalues, kept, s₁, hkept, out, s₂, hout, rfl, rfl⟩
    exact ⟨halg, hplace, digests, kept, s₁, out, hvalues, hkept, hout, rfl⟩
  · rintro ⟨halg, hplace, digests, kept, s₁, out, hvalues, hkept, hout, rfl⟩
    exact ⟨halg, hplace, digests, hvalues, kept, s₁, hkept, out, s', hout, rfl, rfl⟩

theorem processValue_arr {elements : List Json} :
    processValue p (levels + 1) isRoot (.arr elements) path parent s = .ok (v, s') ↔
      ∃ out, processElements p (processValue p levels false) path parent elements [] s = .ok (out, s') ∧
        v = .arr out := by
  simp only [processValue, bind_eq_ok, pure_eq_ok, Prod.mk.injEq, Prod.exists]
  constructor
  · rintro ⟨out, s₁, hout, rfl, rfl⟩
    exact ⟨out, hout, rfl⟩
  · rintro ⟨out, hout, rfl⟩
    exact ⟨out, s', hout, rfl, rfl⟩

theorem processValue_scalar (h : IsScalar value) :
    processValue p (levels + 1) isRoot value path parent s = .ok (value, s) := by
  cases value <;> first | rfl | exact h.elim

end DisclosureProcessor

end EuWallet.Formats
