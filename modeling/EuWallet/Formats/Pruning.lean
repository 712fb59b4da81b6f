import EuWallet.Formats.ClaimPath
import Mathlib.Data.String.Basic

/-! # Taking values out of a document

`prune drop` removes from a document the children at the paths `drop` names: members of objects disappear,
elements of arrays disappear and the later ones move up. `origin` maps a place of the pruned document back
to its place in the whole one; under it the pruned document shows exactly the places no part of whose path
is dropped (`valueAt_prune`, `exists_origin`). -/

namespace EuWallet.Formats

open Codec Crypto Lib

mutual

/-- The document without the children at the dropped paths. -/
def prune (drop : ClaimPath → Bool) : Json → Json
  | .obj members => .obj (pruneMembers drop members)
  | .arr elements => .arr (pruneElements drop 0 elements)
  | value => value

def pruneMembers (drop : ClaimPath → Bool) : List (String × Json) → List (String × Json)
  | [] => []
  | (name, value) :: rest =>
    if drop [.name name] then pruneMembers drop rest
    else (name, prune (fun path => drop (.name name :: path)) value) :: pruneMembers drop rest

def pruneElements (drop : ClaimPath → Bool) : ℕ → List Json → List Json
  | _, [] => []
  | i, value :: rest =>
    if drop [.index i] then pruneElements drop (i + 1) rest
    else prune (fun path => drop (.index i :: path)) value :: pruneElements drop (i + 1) rest

end

/-- The predicate for the child at a step. -/
def below (drop : ClaimPath → Bool) (step : ClaimPathElement) : ClaimPath → Bool :=
  fun path => drop (step :: path)

section
variable {drop : ClaimPath → Bool} {members : List (String × Json)} {name : String} {value : Json}

@[simp] theorem prune_obj : prune drop (.obj members) = .obj (pruneMembers drop members) := rfl

@[simp] theorem prune_arr {elements : List Json} :
    prune drop (.arr elements) = .arr (pruneElements drop 0 elements) := rfl

theorem prune_scalar (h : IsScalar value) : prune drop value = value := by
  cases value <;> first | rfl | exact h.elim

theorem pruneMembers_cons : pruneMembers drop ((name, value) :: members) =
    if drop [.name name] then pruneMembers drop members
    else (name, prune (below drop (.name name)) value) :: pruneMembers drop members := rfl

theorem lookup_pruneMembers (name : String) : (pruneMembers drop members).lookup name =
    if drop [.name name] then none else (members.lookup name).map (prune (below drop (.name name))) := by
  induction members with
  | nil => simp [pruneMembers]
  | cons kv members ih =>
    obtain ⟨key, value⟩ := kv
    rw [pruneMembers_cons, OrdMap.lookup_cons_eq_ite]
    by_cases hkey : name = key
    · subst hkey
      by_cases hdrop : drop [.name name] = true
      · rw [if_pos hdrop, ih, if_pos hdrop, if_pos hdrop]
      · rw [if_neg hdrop, if_neg hdrop, OrdMap.lookup_cons_eq_ite, if_pos rfl, if_pos rfl]
        rfl
    · rw [if_neg hkey, ← ih]
      split_ifs
      · rfl
      · rw [OrdMap.lookup_cons_eq_ite, if_neg hkey]

theorem pruneMembers_keys_sublist : ((pruneMembers drop members).map Prod.fst).Sublist (members.map Prod.fst) := by
  induction members with
  | nil => exact List.Sublist.refl _
  | cons kv members ih =>
    rw [pruneMembers_cons]
    split_ifs
    · exact ih.cons _
    · exact ih.cons_cons _

theorem pruneMembers_insert (hsorted : (members.map Prod.fst).Pairwise (· < ·))
    (hfree : members.lookup name = none) : pruneMembers drop (OrdMap.insert name value members) =
      if drop [.name name] then pruneMembers drop members
      else OrdMap.insert name (prune (below drop (.name name)) value) (pruneMembers drop members) := by
  induction members with
  | nil =>
    rfl
  | cons kv members ih =>
    obtain ⟨key, other⟩ := kv
    rw [OrdMap.lookup_cons_eq_ite] at hfree
    split_ifs at hfree with hkey
    rw [List.map_cons, List.pairwise_cons] at hsorted
    have hrest := ih hsorted.2 hfree
    -- Names before the new one stay before it, whether or not they are dropped.
    have hfirst (hlt : name < key) (v : Json) : OrdMap.insert name v (pruneMembers drop members) =
        (name, v) :: pruneMembers drop members := by
      cases hpruned : pruneMembers drop members with
      | nil => rfl
      | cons kv' rest =>
        have hmem : kv'.1 ∈ members.map Prod.fst := by
          refine pruneMembers_keys_sublist.subset (?_ : kv'.1 ∈ (pruneMembers drop members).map Prod.fst)
          simp [hpruned]
        rw [OrdMap.insert, if_pos (hlt.trans (hsorted.1 _ hmem))]
    rw [OrdMap.insert]
    by_cases hlt : name < key
    · rw [if_pos hlt, pruneMembers_cons, pruneMembers_cons]
      by_cases hname : drop [.name name] = true
      · rw [if_pos hname, if_pos hname]
      · rw [if_neg hname, if_neg hname]
        by_cases hother : drop [.name key] = true
        · rw [if_pos hother, hfirst hlt]
        · rw [if_neg hother, OrdMap.insert, if_pos hlt]
    · rw [if_neg hlt, if_neg hkey, pruneMembers_cons, pruneMembers_cons, hrest]
      by_cases hname : drop [.name name] = true
      · rw [if_pos hname, if_pos hname]
      · rw [if_neg hname, if_neg hname]
        by_cases hother : drop [.name key] = true
        · rw [if_pos hother, if_pos hother]
        · rw [if_neg hother, if_neg hother, OrdMap.insert, if_neg hlt, if_neg hkey]

/-! ### Arrays -/

variable {elements : List Json} {i : ℕ}

/-- The elements that stay, with their positions. -/
def keptElements (drop : ClaimPath → Bool) (i : ℕ) (elements : List Json) : List (Json × ℕ) :=
  (elements.zipIdx i).filter fun vi => !drop [.index vi.2]

theorem pruneElements_eq : pruneElements drop i elements =
    (keptElements drop i elements).map fun vi => prune (below drop (.index vi.2)) vi.1 := by
  induction elements generalizing i with
  | nil => rfl
  | cons value rest ih =>
    rw [pruneElements, keptElements, List.zipIdx_cons, List.filter_cons, ← keptElements, ih]
    by_cases hdrop : drop [.index i] = true
    · simp [hdrop]
    · simp [hdrop]
      rfl

theorem pruneElements_append : pruneElements drop 0 (elements ++ [value]) =
    pruneElements drop 0 elements ++ if drop [.index elements.length] then []
      else [prune (below drop (.index elements.length)) value] := by
  rw [pruneElements_eq, pruneElements_eq, keptElements, keptElements, List.zipIdx_append, List.filter_append,
    List.map_append]
  by_cases hdrop : drop [.index elements.length] = true <;> simp [hdrop]

theorem mem_keptElements {v : Json} {n : ℕ} :
    (v, n) ∈ keptElements drop 0 elements ↔ elements[n]? = some v ∧ drop [.index n] = false := by
  rw [keptElements, List.mem_filter, List.mem_zipIdx_iff_getElem?]
  simp

end

mutual

/-- Nothing is taken out where nothing is dropped. -/
theorem prune_eq_self {drop : ClaimPath → Bool} (h : ∀ path, drop path = false) : ∀ value, prune drop value = value
  | .obj members => by rw [prune_obj, pruneMembers_eq_self h members]
  | .arr elements => by rw [prune_arr, pruneElements_eq_self h 0 elements]
  | .null => rfl
  | .bool _ => rfl
  | .num _ => rfl
  | .str _ => rfl

theorem pruneMembers_eq_self {drop : ClaimPath → Bool} (h : ∀ path, drop path = false) :
    ∀ members, pruneMembers drop members = members
  | [] => rfl
  | (name, value) :: rest => by
    have hvalue : prune (below drop (.name name)) value = value := prune_eq_self (fun _ => h _) value
    rw [pruneMembers_cons, h, pruneMembers_eq_self h rest, hvalue]
    rfl

theorem pruneElements_eq_self {drop : ClaimPath → Bool} (h : ∀ path, drop path = false) :
    ∀ i elements, pruneElements drop i elements = elements
  | _, [] => rfl
  | i, value :: rest => by
    have hvalue : prune (fun path => drop (.index i :: path)) value = value := prune_eq_self (fun _ => h _) value
    rw [pruneElements, h, pruneElements_eq_self h (i + 1) rest, hvalue]
    rfl

end

/-! ### Where a value comes from -/

def originStep (drop : ClaimPath → Bool) : Json → ClaimPathElement → ClaimPathElement
  | .arr elements, .index i => .index (((keptElements drop 0 elements)[i]?.map Prod.snd).getD elements.length)
  | _, step => step

/-- The path of the whole document that a path of the pruned one stands for. -/
def origin (drop : ClaimPath → Bool) : Json → ClaimPath → ClaimPath
  | _, [] => []
  | value, step :: rest =>
    let source := originStep drop value step
    source :: match child value source with
      | some c => origin (below drop source) c rest
      | none => rest

/-- No part of the path is dropped. -/
def Survives (drop : ClaimPath → Bool) (path : ClaimPath) : Prop :=
  ∀ pre, pre <+: path → pre ≠ [] → drop pre = false

/-- The predicate for the value at a path. -/
def under (drop : ClaimPath → Bool) (path : ClaimPath) : ClaimPath → Bool := fun rest => drop (path ++ rest)

section Origin
variable {drop : ClaimPath → Bool} {value w : Json} {step : ClaimPathElement} {path rest : ClaimPath}

theorem survives_cons : Survives drop (step :: rest) ↔ drop [step] = false ∧ Survives (below drop step) rest := by
  constructor
  · intro h
    refine ⟨h [step] (by simp) (by simp), fun pre hpre hne => ?_⟩
    exact h (step :: pre) (by simpa using hpre) (by simp)
  · rintro ⟨hstep, hrest⟩ pre hpre hne
    cases pre with
    | nil => exact absurd rfl hne
    | cons first pre =>
      obtain ⟨rfl, hrest'⟩ := List.cons_prefix_cons.mp hpre
      cases pre with
      | nil => exact hstep
      | cons second pre => exact hrest _ hrest' (by simp)

theorem child_prune : child (prune drop value) step = some w ↔
    ∃ u, child value (originStep drop value step) = some u ∧ drop [originStep drop value step] = false ∧
      w = prune (below drop (originStep drop value step)) u := by
  cases value with
  | obj members =>
    cases step with
    | name name =>
      show (pruneMembers drop members).lookup name = some w ↔ ∃ u, members.lookup name = some u ∧ _
      rw [lookup_pruneMembers]
      cases hdrop : drop [.name name] <;> simp [originStep, hdrop, eq_comm]
    | index i => simp [child, originStep]
  | arr elements =>
    cases step with
    | name name => simp [child, originStep]
    | index i =>
      show (pruneElements drop 0 elements)[i]? = some w ↔ _
      rw [pruneElements_eq, List.getElem?_map]
      cases hkept : (keptElements drop 0 elements)[i]? with
      | none => simp [originStep, hkept, child]
      | some vn =>
        obtain ⟨hv, hn⟩ := mem_keptElements.mp (List.mem_of_getElem? hkept)
        simp [originStep, hkept, child, hv, hn, eq_comm]
  | null | bool | num | str => simp [child, prune, originStep]

theorem valueAt_prune (h : valueAt (prune drop value) path = some w) :
    ∃ u, valueAt value (origin drop value path) = some u ∧ Survives drop (origin drop value path) ∧
      w = prune (under drop (origin drop value path)) u := by
  induction path generalizing value drop with
  | nil =>
    cases h
    exact ⟨value, rfl, fun pre hpre hne => absurd (List.prefix_nil.mp hpre) hne, rfl⟩
  | cons step rest ih =>
    obtain ⟨c, hc, hrest⟩ := Option.bind_eq_some_iff.mp h
    obtain ⟨u, hu, hkept, rfl⟩ := child_prune.mp hc
    obtain ⟨w', hw', hsurvives, rfl⟩ := ih hrest
    have horigin : origin drop value (step :: rest) =
        originStep drop value step :: origin (below drop (originStep drop value step)) u rest := by
      simp [origin, hu]
    rw [horigin]
    refine ⟨w', ?_, survives_cons.mpr ⟨hkept, hsurvives⟩, rfl⟩
    rw [valueAt_cons, hu]
    exact hw'

theorem exists_originStep {u : Json} (hchild : child value step = some u) (hkept : drop [step] = false) :
    ∃ shown, originStep drop value shown = step := by
  cases value with
  | obj members => exact ⟨step, rfl⟩
  | arr elements =>
    cases step with
    | name name => cases hchild
    | index n =>
      obtain ⟨i, hi⟩ := List.mem_iff_getElem?.mp (mem_keptElements.mpr ⟨hchild, hkept⟩)
      exact ⟨.index i, by simp [originStep, hi]⟩
  | null | bool | num | str => cases hchild

theorem exists_origin {u : Json} (h : valueAt value path = some u) (hsurvives : Survives drop path) :
    ∃ shown, origin drop value shown = path ∧
      valueAt (prune drop value) shown = some (prune (under drop path) u) := by
  induction path generalizing value drop with
  | nil =>
    cases h
    exact ⟨[], rfl, rfl⟩
  | cons step rest ih =>
    obtain ⟨c, hc, hrest⟩ := Option.bind_eq_some_iff.mp h
    obtain ⟨hkept, hsurvives⟩ := survives_cons.mp hsurvives
    obtain ⟨first, hfirst⟩ := exists_originStep hc hkept
    obtain ⟨shown, hshown, hvalue⟩ := ih hrest hsurvives
    have hchild : child (prune drop value) first = some (prune (below drop step) c) :=
      child_prune.mpr ⟨c, by rw [hfirst, hc], by rw [hfirst, hkept], by rw [hfirst]⟩
    refine ⟨first :: shown, ?_, ?_⟩
    · simp [origin, hfirst, hc, hshown]
    · rw [valueAt_cons, hchild]
      exact hvalue

end Origin

/-! ### Sizes -/

def jsonBytes (p : Platform) (value : Json) : ℕ := (p.renderJson value).utf8ByteSize

/-- Values are written without white space: brackets, commas and colons are all there is between them. -/
structure Compact (p : Platform) : Prop where
  arr : ∀ elements, jsonBytes p (.arr elements) =
    2 + (elements.map (jsonBytes p)).sum + (elements.length - 1)
  obj : ∀ members, jsonBytes p (.obj members) =
    2 + (members.map fun kv => jsonBytes p (.str kv.1) + 1 + jsonBytes p kv.2).sum + (members.length - 1)

variable {p : Platform}

mutual

/-- Pruning makes no document longer. -/
theorem jsonBytes_prune (hcompact : Compact p) (drop : ClaimPath → Bool) :
    ∀ value, jsonBytes p (prune drop value) ≤ jsonBytes p value
  | .obj members => by
    obtain ⟨hsum, hlength⟩ := jsonBytes_pruneMembers hcompact drop members
    rw [prune_obj, hcompact.obj, hcompact.obj]
    omega
  | .arr elements => by
    obtain ⟨hsum, hlength⟩ := jsonBytes_pruneElements hcompact drop 0 elements
    rw [prune_arr, hcompact.arr, hcompact.arr]
    omega
  | .null => le_rfl
  | .bool _ => le_rfl
  | .num _ => le_rfl
  | .str _ => le_rfl

theorem jsonBytes_pruneMembers (hcompact : Compact p) (drop : ClaimPath → Bool) : ∀ members : List (String × Json),
      ((pruneMembers drop members).map fun kv => jsonBytes p (.str kv.1) + 1 + jsonBytes p kv.2).sum ≤
          (members.map fun kv => jsonBytes p (.str kv.1) + 1 + jsonBytes p kv.2).sum ∧
        (pruneMembers drop members).length ≤ members.length
  | [] => ⟨le_rfl, le_rfl⟩
  | (name, value) :: rest => by
    have hvalue := jsonBytes_prune hcompact (below drop (.name name)) value
    obtain ⟨hsum, hlength⟩ := jsonBytes_pruneMembers hcompact drop rest
    rw [pruneMembers_cons]
    split_ifs
    · simp only [List.map_cons, List.sum_cons, List.length_cons]
      omega
    · simp only [List.map_cons, List.sum_cons, List.length_cons]
      omega

theorem jsonBytes_pruneElements (hcompact : Compact p) (drop : ClaimPath → Bool) : ∀ (i : ℕ) (elements : List Json),
      ((pruneElements drop i elements).map (jsonBytes p)).sum ≤ (elements.map (jsonBytes p)).sum ∧
        (pruneElements drop i elements).length ≤ elements.length
  | _, [] => ⟨le_rfl, le_rfl⟩
  | i, value :: rest => by
    have hvalue := jsonBytes_prune hcompact (below drop (.index i)) value
    obtain ⟨hsum, hlength⟩ := jsonBytes_pruneElements hcompact drop (i + 1) rest
    have hcons : pruneElements drop i (value :: rest) = if drop [.index i] then pruneElements drop (i + 1) rest
        else prune (below drop (.index i)) value :: pruneElements drop (i + 1) rest := rfl
    rw [hcons]
    split_ifs
    · simp only [List.map_cons, List.sum_cons, List.length_cons]
      omega
    · simp only [List.map_cons, List.sum_cons, List.length_cons]
      omega

end

end EuWallet.Formats
