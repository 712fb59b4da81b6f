import Mathlib.Data.List.Nodup
import Mathlib.Data.Finset.Card

/-! # Depth-first enumeration of simple paths

A graph is given by the successors of each node and by the goals that can be reached from each node
directly. `paths` lists, depth first, every way from a node to a goal that visits no node twice. -/

namespace EuWallet.Lib.SimplePaths

variable {α β : Type} [DecidableEq α]

/-- The paths to a goal that continue `path`, whose last node is the given one; the first argument
bounds how many nodes the search goes deep. -/
def paths (succs : α → List α) (goals : α → List β) : ℕ → α → List α → List (List α × β)
  | 0, _, _ => []
  | depth + 1, a, path =>
    (goals a).map (path, ·) ++
      ((succs a).filter (· ∉ path)).flatMap fun b => paths succs goals depth b (path ++ [b])

/-- The nodes after the first one on a way from a node to a goal. -/
inductive Climb (succs : α → List α) (goals : α → List β) : α → List α → β → Prop
  | goal {a : α} {g : β} (h : g ∈ goals a) : Climb succs goals a [] g
  | next {a b : α} {rest : List α} {g : β} (h : b ∈ succs a) (way : Climb succs goals b rest g) :
    Climb succs goals a (b :: rest) g

variable {succs : α → List α} {goals : α → List β}

theorem isPrefix_of_mem_paths {depth : ℕ} {a : α} {path q : List α} {g : β}
    (h : (q, g) ∈ paths succs goals depth a path) : path <+: q := by
  induction depth generalizing a path with
  | zero => cases h
  | succ depth ih =>
    rw [paths, List.mem_append] at h
    rcases h with h | h
    · obtain ⟨_, _, hq⟩ := List.mem_map.mp h
      exact (Prod.mk.inj hq).1 ▸ List.prefix_refl path
    · obtain ⟨b, -, hb⟩ := List.mem_flatMap.mp h
      exact (List.prefix_append path [b]).trans (ih hb)

theorem mem_nodes_of_mem_paths {nodes : Set α} (hclosed : ∀ a ∈ nodes, ∀ b ∈ succs a, b ∈ nodes)
    {depth : ℕ} {a : α} {path q : List α} {g : β} (ha : a ∈ nodes) (hpath : ∀ b ∈ path, b ∈ nodes)
    (h : (q, g) ∈ paths succs goals depth a path) : (∀ b ∈ q, b ∈ nodes) ∧ ∃ b ∈ nodes, g ∈ goals b := by
  induction depth generalizing a path with
  | zero => cases h
  | succ depth ih =>
    rw [paths, List.mem_append] at h
    rcases h with h | h
    · obtain ⟨g', hg, hq⟩ := List.mem_map.mp h
      obtain ⟨rfl, rfl⟩ := Prod.mk.inj hq
      exact ⟨hpath, a, ha, hg⟩
    · obtain ⟨b, hb, hq⟩ := List.mem_flatMap.mp h
      have hb : b ∈ nodes := hclosed a ha b (List.mem_of_mem_filter hb)
      refine ih hb (fun c hc => ?_) hq
      rcases List.mem_append.mp hc with hc | hc
      · exact hpath c hc
      · exact List.mem_singleton.mp hc ▸ hb

theorem nodup_paths (hsuccs : ∀ a, (succs a).Nodup) (hgoals : ∀ a, (goals a).Nodup) (depth : ℕ) :
    ∀ (a : α) (path : List α), (paths succs goals depth a path).Nodup := by
  induction depth with
  | zero => exact fun _ _ => List.nodup_nil
  | succ depth ih =>
    intro a path
    refine List.Nodup.append ((hgoals a).map fun _ _ h => (Prod.mk.inj h).2) ?_ ?_
    · -- two successors extend the path differently
      refine List.nodup_flatMap.mpr ⟨fun b _ => ih b _, ?_⟩
      refine ((hsuccs a).filter _).imp fun {b c} hne => ?_
      rintro ⟨q, g⟩ hb hc
      have hsame : path ++ [b] = path ++ [c] :=
        (List.prefix_of_prefix_length_le (isPrefix_of_mem_paths hb) (isPrefix_of_mem_paths hc)
          (by simp)).eq_of_length (by simp)
      exact hne (by simpa using hsame)
    · -- a path that goes on is longer than the one that ends here
      rintro ⟨q, g⟩ hend hon
      obtain ⟨_, _, hq⟩ := List.mem_map.mp hend
      obtain ⟨b, -, hb⟩ := List.mem_flatMap.mp hon
      have hlen := (isPrefix_of_mem_paths hb).length_le
      rw [← (Prod.mk.inj hq).1, List.length_append, List.length_singleton] at hlen
      omega

theorem mem_paths {nodes : Finset α} (hclosed : ∀ a, ∀ b ∈ succs a, b ∈ nodes) (depth : ℕ) :
    ∀ {a : α} {path : List α}, path.Nodup → (∀ b ∈ path, b ∈ nodes) →
      nodes.card < path.length + depth → ∀ {q : List α} {g : β}, (q, g) ∈ paths succs goals depth a path ↔
        ∃ rest, q = path ++ rest ∧ Climb succs goals a rest g ∧ (path ++ rest).Nodup := by
  induction depth with
  | zero =>
    intro a path hnodup hnodes hroom
    have hcard : path.length ≤ nodes.card := by
      rw [← List.toFinset_card_of_nodup hnodup]
      exact Finset.card_le_card fun b hb => hnodes b (List.mem_toFinset.mp hb)
    omega
  | succ depth ih =>
    intro a path hnodup hnodes hroom q g
    have hstep : ∀ b ∈ succs a, b ∉ path → ((q, g) ∈ paths succs goals depth b (path ++ [b]) ↔
          ∃ rest, q = path ++ [b] ++ rest ∧ Climb succs goals b rest g ∧ (path ++ [b] ++ rest).Nodup) := by
      intro b hb hfresh
      refine ih (List.nodup_append.mpr ⟨hnodup, List.nodup_singleton b, ?_⟩) ?_ ?_
      · rintro c hc d hd rfl
        exact hfresh (List.mem_singleton.mp hd ▸ hc)
      · intro c hc
        rcases List.mem_append.mp hc with hc | hc
        · exact hnodes c hc
        · exact List.mem_singleton.mp hc ▸ hclosed a b hb
      · rw [List.length_append, List.length_singleton]
        omega
    rw [paths, List.mem_append, List.mem_map, List.mem_flatMap]
    constructor
    · rintro (⟨g', hg, hq⟩ | ⟨b, hb, hq⟩)
      · obtain ⟨rfl, rfl⟩ := Prod.mk.inj hq
        exact ⟨[], (List.append_nil path).symm, .goal hg, by simpa using hnodup⟩
      · obtain ⟨hb, hfresh⟩ := List.mem_filter.mp hb
        obtain ⟨rest, rfl, way, hrest⟩ := (hstep b hb (by simpa using hfresh)).mp hq
        exact ⟨b :: rest, by simp, .next hb way, by simpa using hrest⟩
    · rintro ⟨rest, rfl, way, hrest⟩
      cases way with
      | goal hg => exact .inl ⟨g, hg, by simp⟩
      | @next _ b rest _ hb way =>
        have hfresh : b ∉ path := fun hmem =>
          (List.nodup_append.mp hrest).2.2 b hmem b List.mem_cons_self rfl
        refine .inr ⟨b, List.mem_filter.mpr ⟨hb, by simpa using hfresh⟩, ?_⟩
        exact (hstep b hb hfresh).mpr ⟨rest, by simp, way, by simpa using hrest⟩

theorem paths_map {α' β' : Type} [DecidableEq α'] {f : α → α'} {e : β → β'}
    {succs' : α' → List α'} {goals' : α' → List β'} {nodes : Set α} (hinj : Set.InjOn f nodes)
    (hclosed : ∀ a ∈ nodes, ∀ b ∈ succs a, b ∈ nodes) (hsuccs : ∀ a ∈ nodes, succs' (f a) = (succs a).map f)
    (hgoals : ∀ a ∈ nodes, goals' (f a) = (goals a).map e) (depth : ℕ) :
    ∀ a ∈ nodes, ∀ path, (∀ b ∈ path, b ∈ nodes) → paths succs' goals' depth (f a) (path.map f) =
        (paths succs goals depth a path).map (Prod.map (List.map f) e) := by
  induction depth with
  | zero => exact fun _ _ _ _ => rfl
  | succ depth ih =>
    intro a ha path hpath
    have hmem : ∀ b ∈ succs a, (f b ∈ path.map f ↔ b ∈ path) := by
      intro b hb
      refine ⟨fun h => ?_, List.mem_map_of_mem⟩
      obtain ⟨c, hc, hcb⟩ := List.mem_map.mp h
      exact hinj (hpath c hc) (hclosed a ha b hb) hcb ▸ hc
    have hfilter : ((succs a).map f).filter (· ∉ path.map f) = ((succs a).filter (· ∉ path)).map f := by
      rw [List.filter_map]
      refine congrArg _ (List.filter_congr fun b hb => ?_)
      simp only [Function.comp_apply, hmem b hb]
    rw [paths, paths, hsuccs a ha, hgoals a ha, hfilter, List.map_append, List.flatMap_map,
      List.map_flatMap, List.map_map, List.map_map]
    refine congrArg₂ _ rfl (List.flatMap_congr fun b hb => ?_)
    have hb := (List.mem_filter.mp hb).1
    have hnext := ih b (hclosed a ha b hb) (path ++ [b]) (by
      intro c hc
      rcases List.mem_append.mp hc with hc | hc
      · exact hpath c hc
      · exact List.mem_singleton.mp hc ▸ hclosed a ha b hb)
    rwa [List.map_append] at hnext

end EuWallet.Lib.SimplePaths
