import EuWallet.Codec.Numbers
import EuWallet.Formats.ClaimPath
import EuWallet.Wallet.Evidence

/-! # Labels of claim paths

The consent screen lists claims by label (`sdjwt_path_string`). Names that could be mistaken for something
else are written as JSON strings in brackets, so a label stands for one path (`sdjwtPathString_injective`),
provided that JSON strings are written in quotes and can be told from what follows them. -/

namespace EuWallet.Wallet

open Codec Crypto Formats

structure Quotes (p : Platform) : Prop where
  opens : ∀ name, ∃ text, (p.renderJson (.str name)).toList = '"' :: text
  delimited : ∀ {name other : String} {after after' : List Char},
    (p.renderJson (.str name)).toList ++ after = (p.renderJson (.str other)).toList ++ after' →
      name = other ∧ after = after'

/-- A name that is written as it is. -/
def plainName (name : String) : Bool :=
  !name.isEmpty && (utf8 name).all fun b => isAsciiAlphanumeric b || b == 95 || b == 45

def labelPart (p : Platform) : ClaimPathElement → List Char
  | .name name => if plainName name then '.' :: name.toList else '[' :: (p.renderJson (.str name)).toList ++ [']']
  | .index i => '[' :: (toString i).toList ++ [']']

def labelHead (p : Platform) : ClaimPathElement → List Char
  | .name name => if plainName name then name.toList else labelPart p (.name name)
  | .index i => labelPart p (.index i)

section Labels
variable {p : Platform}

theorem toList_ne_nil {s : String} (h : s.isEmpty = false) : s.toList ≠ [] := by
  intro hnil
  rw [String.toList_eq_nil_iff] at hnil
  rw [hnil] at h
  cases h

theorem labelHead_ne_nil (e : ClaimPathElement) : labelHead p e ≠ [] := by
  cases e with
  | index i => simp [labelHead, labelPart]
  | name name =>
    rw [labelHead]
    split_ifs with hplain
    · refine toList_ne_nil ?_
      simp only [plainName, Bool.and_eq_true, Bool.not_eq_true'] at hplain
      exact hplain.1
    · simp [labelPart, hplain]

def labelStep (p : Platform) (rendered : String) : ClaimPathElement → String
  | .name name =>
    if plainName name then
      (if rendered.isEmpty then rendered else rendered ++ ".") ++ name
    else rendered ++ "[" ++ p.renderJson (.str name) ++ "]"
  | .index i => rendered ++ "[" ++ toString i ++ "]"

theorem sdjwtPathString_eq (path : ClaimPath) : sdjwtPathString p path = path.foldl (labelStep p) "" := by
  congr 1

theorem toList_labelStep (rendered : String) (e : ClaimPathElement) : (labelStep p rendered e).toList =
      rendered.toList ++ if rendered.isEmpty then labelHead p e else labelPart p e := by
  cases e with
  | index i => simp [labelStep, labelHead, labelPart, String.toList_append]
  | name name =>
    simp only [labelStep, labelHead, labelPart]
    by_cases hplain : plainName name = true
    · by_cases hr : rendered.isEmpty = true <;> simp [hplain, hr, String.toList_append]
    · simp [hplain, String.toList_append]

/-- A label is what its elements add, one after the other. -/
theorem toList_foldl_labelStep {rendered : String} (h : rendered.isEmpty = false) (path : ClaimPath) :
    (path.foldl (labelStep p) rendered).toList = rendered.toList ++ path.flatMap (labelPart p) := by
  induction path generalizing rendered with
  | nil => simp
  | cons e path ih =>
    have hstep : (labelStep p rendered e).toList = rendered.toList ++ labelPart p e := by
      rw [toList_labelStep, h]
      rfl
    have hnext : (labelStep p rendered e).isEmpty = false := by
      rw [Bool.eq_false_iff, ne_eq, String.isEmpty_iff, ← String.toList_eq_nil_iff, hstep]
      have := toList_ne_nil h
      simp [this]
    rw [List.foldl_cons, ih hnext, hstep, List.flatMap_cons, List.append_assoc]

theorem toList_sdjwtPathString (e : ClaimPathElement) (path : ClaimPath) :
    (sdjwtPathString p (e :: path)).toList = labelHead p e ++ path.flatMap (labelPart p) := by
  have hstep : (labelStep p "" e).toList = labelHead p e := toList_labelStep "" e
  have hnext : (labelStep p "" e).isEmpty = false := by
    rw [Bool.eq_false_iff, ne_eq, String.isEmpty_iff, ← String.toList_eq_nil_iff, hstep]
    exact labelHead_ne_nil e
  rw [sdjwtPathString_eq, List.foldl_cons, toList_foldl_labelStep hnext, hstep]

/-! ### Reading a label -/

/-- A text of characters of one kind ends where another kind begins. -/
theorem append_cancel_of_stop {α : Type} {P : α → Prop} {a b t u : List α} (ha : ∀ c ∈ a, P c) (hb : ∀ c ∈ b, P c)
    (ht : ∀ c ∈ t.head?, ¬ P c) (hu : ∀ c ∈ u.head?, ¬ P c) (h : a ++ t = b ++ u) : a = b ∧ t = u := by
  induction a generalizing b with
  | nil =>
    cases b with
    | nil => exact ⟨rfl, h⟩
    | cons c b =>
      subst h
      exact absurd (hb c List.mem_cons_self) (ht c rfl)
  | cons c a ih =>
    cases b with
    | nil =>
      subst h
      exact absurd (ha c List.mem_cons_self) (hu c rfl)
    | cons d b =>
      obtain ⟨rfl, hrest⟩ := List.cons.inj h
      rw [List.forall_mem_cons] at ha hb
      obtain ⟨rfl, htail⟩ := ih ha.2 hb.2 hrest
      exact ⟨rfl, htail⟩

theorem plain_of_plainName {name : String} (h : plainName name = true) : ∀ c ∈ name.toList, c ≠ '.' ∧ c ≠ '[' := by
  have hbytes : ∀ b ∈ utf8 name, (isAsciiAlphanumeric b || b == 95 || b == 45) = true := by
    simp only [plainName, Bool.and_eq_true] at h
    exact List.all_eq_true.mp h.2
  intro c hc
  have hencoded : ∀ b ∈ String.utf8EncodeChar c, (isAsciiAlphanumeric b || b == 95 || b == 45) = true := by
    intro b hb
    refine hbytes b ?_
    rw [utf8_eq_flatMap]
    exact List.mem_flatMap.mpr ⟨c, hc, hb⟩
  constructor
  · rintro rfl
    exact absurd (hencoded 46 (by decide)) (by decide)
  · rintro rfl
    exact absurd (hencoded 91 (by decide)) (by decide)

/-- After an element comes nothing, a dot or a bracket. -/
theorem head_labelParts (path : ClaimPath) : ∀ c ∈ (path.flatMap (labelPart p)).head?, ¬ (c ≠ '.' ∧ c ≠ '[') := by
  cases path with
  | nil => simp
  | cons e path =>
    intro c hc
    cases e with
    | index i =>
      have hc : c = '[' := by simpa [labelPart, eq_comm] using hc
      simp [hc]
    | name name =>
      simp only [List.flatMap_cons, labelPart] at hc
      split_ifs at hc
      · have hc : c = '.' := by simpa [eq_comm] using hc
        simp [hc]
      · have hc : c = '[' := by simpa [eq_comm] using hc
        simp [hc]

theorem index_text {i j : ℕ} {t u : List Char}
    (h : (toString i).toList ++ ']' :: t = (toString j).toList ++ ']' :: u) : i = j ∧ t = u := by
  have hdigits (n : ℕ) : ∀ c ∈ (toString n).toList, c.isDigit = true := by
    intro c hc
    rw [Nat.toString_eq_repr, Nat.toList_repr] at hc
    exact Nat.isDigit_of_mem_toDigits (by decide) (by decide) hc
  obtain ⟨htext, hrest⟩ := append_cancel_of_stop (hdigits i) (hdigits j) (by simp) (by simp) h
  refine ⟨?_, (List.cons.inj hrest).2⟩
  rw [Nat.toString_eq_repr, Nat.toList_repr, Nat.toString_eq_repr, Nat.toList_repr] at htext
  have hread := congrArg (Nat.ofDigitChars 10 · 0) htext
  simpa only [Nat.ofDigitChars_toDigits (show 1 < 10 by decide) le_rfl] using hread

theorem index_ne_quoted (hquotes : Quotes p) {i : ℕ} {name : String} {t u : List Char}
    (h : (toString i).toList ++ t = (p.renderJson (.str name)).toList ++ u) : False := by
  obtain ⟨text, htext⟩ := hquotes.opens name
  rw [htext, Nat.toString_eq_repr, Nat.toList_repr] at h
  cases hdigits : Nat.toDigits 10 i with
  | nil => exact absurd hdigits (by simp)
  | cons d rest =>
    rw [hdigits] at h
    obtain ⟨rfl, -⟩ := List.cons.inj h
    have hdigit : '"'.isDigit = true :=
      Nat.isDigit_of_mem_toDigits (n := i) (b := 10) (by decide) (by decide) (by simp [hdigits])
    exact absurd hdigit (by decide)

theorem labelPart_cancel (hquotes : Quotes p) {e e' : ClaimPathElement} {t u : List Char}
    (ht : ∀ c ∈ t.head?, ¬ (c ≠ '.' ∧ c ≠ '[')) (hu : ∀ c ∈ u.head?, ¬ (c ≠ '.' ∧ c ≠ '['))
    (h : labelPart p e ++ t = labelPart p e' ++ u) : e = e' ∧ t = u := by
  have hbracket {name : String} (hplain : ¬ plainName name = true) (after : List Char) :
      labelPart p (.name name) ++ after = '[' :: ((p.renderJson (.str name)).toList ++ ']' :: after) := by
    simp [labelPart, hplain]
  have hdot {name : String} (hplain : plainName name = true) (after : List Char) :
      labelPart p (.name name) ++ after = '.' :: (name.toList ++ after) := by
    simp [labelPart, hplain]
  have hindex (i : ℕ) (after : List Char) :
      labelPart p (.index i) ++ after = '[' :: ((toString i).toList ++ ']' :: after) := by
    simp [labelPart]
  cases e with
  | name name =>
    cases e' with
    | name other =>
      by_cases hplain : plainName name = true <;> by_cases hplain' : plainName other = true
      · rw [hdot hplain, hdot hplain'] at h
        obtain ⟨htext, hrest⟩ := append_cancel_of_stop (plain_of_plainName hplain) (plain_of_plainName hplain') ht hu
          (List.cons.inj h).2
        exact ⟨by rw [String.toList_inj.mp htext], hrest⟩
      · rw [hdot hplain, hbracket hplain'] at h
        exact absurd (List.cons.inj h).1 (by decide)
      · rw [hbracket hplain, hdot hplain'] at h
        exact absurd (List.cons.inj h).1 (by decide)
      · rw [hbracket hplain, hbracket hplain'] at h
        obtain ⟨rfl, hrest⟩ := hquotes.delimited (List.cons.inj h).2
        exact ⟨rfl, (List.cons.inj hrest).2⟩
    | index j =>
      by_cases hplain : plainName name = true
      · rw [hdot hplain, hindex] at h
        exact absurd (List.cons.inj h).1 (by decide)
      · rw [hbracket hplain, hindex] at h
        exact (index_ne_quoted hquotes (List.cons.inj h).2.symm).elim
  | index i =>
    cases e' with
    | name other =>
      by_cases hplain : plainName other = true
      · rw [hdot hplain, hindex] at h
        exact absurd (List.cons.inj h).1 (by decide)
      · rw [hbracket hplain, hindex] at h
        exact (index_ne_quoted hquotes (List.cons.inj h).2).elim
    | index j =>
      rw [hindex, hindex] at h
      obtain ⟨rfl, hrest⟩ := index_text (List.cons.inj h).2
      exact ⟨rfl, hrest⟩

theorem labelPart_ne_nil (e : ClaimPathElement) : labelPart p e ≠ [] := by
  cases e with
  | index i => simp [labelPart]
  | name name =>
    rw [labelPart]
    split_ifs <;> simp

theorem labelParts_injective (hquotes : Quotes p) {path other : ClaimPath}
    (h : path.flatMap (labelPart p) = other.flatMap (labelPart p)) : path = other := by
  induction path generalizing other with
  | nil =>
    cases other with
    | nil => rfl
    | cons e other => exact absurd (List.append_eq_nil_iff.mp h.symm).1 (labelPart_ne_nil e)
  | cons e path ih =>
    cases other with
    | nil => exact absurd (List.append_eq_nil_iff.mp h).1 (labelPart_ne_nil e)
    | cons e' other =>
      obtain ⟨rfl, hrest⟩ := labelPart_cancel hquotes (head_labelParts path) (head_labelParts other) h
      rw [ih hrest]

/-- A label with a dot before it, if it starts with a plain name, is made of parts. -/
theorem labelHead_eq (e : ClaimPathElement) :
    (∃ c text, labelHead p e = c :: text ∧ c ≠ '[' ∧ labelPart p e = '.' :: labelHead p e) ∨
      ∃ text, labelHead p e = '[' :: text ∧ labelPart p e = labelHead p e := by
  cases e with
  | index i => exact .inr ⟨_, rfl, rfl⟩
  | name name =>
    by_cases hplain : plainName name = true
    · left
      have hhead : labelHead p (.name name) = name.toList := if_pos hplain
      cases htext : name.toList with
      | nil => exact absurd (hhead.trans htext) (labelHead_ne_nil _)
      | cons c text =>
        refine ⟨c, text, hhead.trans htext, (plain_of_plainName hplain c (by simp [htext])).2, ?_⟩
        rw [hhead]
        exact if_pos hplain
    · right
      have hpart : labelPart p (.name name) = '[' :: (p.renderJson (.str name)).toList ++ [']'] := if_neg hplain
      have hhead : labelHead p (.name name) = labelPart p (.name name) := if_neg hplain
      exact ⟨_, hhead.trans hpart, hhead.symm⟩

theorem sdjwtPathString_injective (hquotes : Quotes p) : Function.Injective (sdjwtPathString p) := by
  have hempty (e : ClaimPathElement) (path : ClaimPath) : sdjwtPathString p (e :: path) ≠ sdjwtPathString p [] := by
    intro h
    have hnil : (sdjwtPathString p (e :: path)).toList = [] := by
      rw [h]
      rfl
    rw [toList_sdjwtPathString] at hnil
    exact labelHead_ne_nil e (List.append_eq_nil_iff.mp hnil).1
  intro path other h
  cases path with
  | nil =>
    cases other with
    | nil => rfl
    | cons e' other => exact absurd h.symm (hempty e' other)
  | cons e path =>
    cases other with
    | nil => exact absurd h (hempty e path)
    | cons e' other =>
      have htext : labelHead p e ++ path.flatMap (labelPart p) = labelHead p e' ++ other.flatMap (labelPart p) := by
        rw [← toList_sdjwtPathString, ← toList_sdjwtPathString, h]
      refine labelParts_injective hquotes ?_
      rw [List.flatMap_cons, List.flatMap_cons]
      rcases labelHead_eq (p := p) e with ⟨c, text, hhead, hc, hpart⟩ | ⟨text, hhead, hpart⟩ <;>
        rcases labelHead_eq (p := p) e' with ⟨c', text', hhead', hc', hpart'⟩ | ⟨text', hhead', hpart'⟩
      · rw [hpart, hpart', List.cons_append, List.cons_append, htext]
      · rw [hhead, hhead'] at htext
        exact absurd (List.cons.inj htext).1 hc
      · rw [hhead, hhead'] at htext
        exact absurd (List.cons.inj htext).1.symm hc'
      · rw [hpart, hpart', htext]

/-! ### Strings of `serde_json` -/

def lowerHexDigit (n : ℕ) : Char := if n < 10 then Char.ofNat (48 + n) else Char.ofNat (87 + n)

/-- One character of a string, as `serde_json` writes it. -/
def escapeChar (c : Char) : List Char :=
  if c = '"' ∨ c = '\\' then ['\\', c]
  else if c.toNat = 8 then ['\\', 'b']
  else if c.toNat = 9 then ['\\', 't']
  else if c.toNat = 10 then ['\\', 'n']
  else if c.toNat = 12 then ['\\', 'f']
  else if c.toNat = 13 then ['\\', 'r']
  else if c.toNat < 32 then
    ['\\', 'u', '0', '0', lowerHexDigit (c.toNat / 16), lowerHexDigit (c.toNat % 16)]
  else [c]

def WritesStrings (p : Platform) : Prop :=
  ∀ name, (p.renderJson (.str name)).toList = '"' :: (name.toList.flatMap escapeChar ++ ['"'])

def escapedChars : List Char := '"' :: '\\' :: (List.range 32).map Char.ofNat

theorem escapeChar_cases (c : Char) : c ∈ escapedChars ∨ escapeChar c = [c] ∧ c ≠ '"' ∧ c ≠ '\\' := by
  by_cases hcontrol : c.toNat < 32
  · refine .inl (List.mem_cons_of_mem _ (List.mem_cons_of_mem _ (List.mem_map.mpr ⟨c.toNat, ?_, ?_⟩)))
    · exact List.mem_range.mpr hcontrol
    · exact Char.ofNat_toNat c
  · by_cases hquote : c = '"' ∨ c = '\\'
    · left
      rcases hquote with rfl | rfl <;> decide
    · right
      rw [not_or] at hquote
      refine ⟨?_, hquote⟩
      unfold escapeChar
      rw [if_neg (not_or.mpr hquote), if_neg (by omega), if_neg (by omega), if_neg (by omega), if_neg (by omega),
        if_neg (by omega), if_neg hcontrol]

theorem escapedChars_head : ∀ c ∈ escapedChars, (escapeChar c).head? = some '\\' := by
  have hall : escapedChars.all (fun c => (escapeChar c).head? == some '\\') = true := by decide
  simpa using hall

theorem escapedChars_free : ∀ c ∈ escapedChars, ∀ d ∈ escapedChars, escapeChar c <+: escapeChar d → c = d := by
  have hall : escapedChars.all (fun c => escapedChars.all fun d => escapeChar c <+: escapeChar d → c = d) = true := by
    decide
  simpa only [List.all_eq_true, decide_eq_true_eq] using hall

theorem escapeChar_cancel {c d : Char} {t u : List Char} (h : escapeChar c ++ t = escapeChar d ++ u) :
    c = d ∧ t = u := by
  have hhead {c : Char} (hc : c ∈ escapedChars) (t : List Char) : (escapeChar c ++ t).head? = some '\\' := by
    rw [List.head?_append, escapedChars_head c hc, Option.some_or]
  have hsame : c = d := by
    rcases escapeChar_cases c with hc | ⟨hc, -, hslash⟩ <;> rcases escapeChar_cases d with hd | ⟨hd, -, hslash'⟩
    · rcases List.append_eq_append_iff.mp h with ⟨more, hmore, -⟩ | ⟨more, hmore, -⟩
      · exact escapedChars_free c hc d hd ⟨more, hmore.symm⟩
      · exact (escapedChars_free d hd c hc ⟨more, hmore.symm⟩).symm
    · have hopen := hhead hc t
      rw [h, hd] at hopen
      exact absurd (Option.some.inj hopen) hslash'
    · have hopen := hhead hd u
      rw [← h, hc] at hopen
      exact absurd (Option.some.inj hopen) hslash
    · rw [hc, hd] at h
      exact (List.cons.inj h).1
  subst hsame
  exact ⟨rfl, List.append_cancel_left h⟩

/-- A text of coded characters ends at the first quote. -/
theorem coded_cancel {code : Char → List Char} (hopen : ∀ c, code c ≠ [] ∧ (code c).head? ≠ some '"')
    (hcode : ∀ {c d t u}, code c ++ t = code d ++ u → c = d ∧ t = u) {a b t u : List Char}
    (h : a.flatMap code ++ '"' :: t = b.flatMap code ++ '"' :: u) : a = b ∧ t = u := by
  have hstop (c : Char) (rest t : List Char) : '"' :: t ≠ code c ++ rest := by
    intro h
    obtain ⟨hne, hquote⟩ := hopen c
    cases hcoded : code c with
    | nil => exact hne hcoded
    | cons x more =>
      rw [hcoded] at h hquote
      exact hquote (congrArg some (List.cons.inj h).1.symm)
  induction a generalizing b with
  | nil =>
    cases b with
    | nil => exact ⟨rfl, (List.cons.inj h).2⟩
    | cons d b =>
      rw [List.flatMap_cons, List.append_assoc] at h
      exact absurd h (hstop d _ t)
  | cons c a ih =>
    rw [List.flatMap_cons, List.append_assoc] at h
    cases b with
    | nil => exact absurd h.symm (hstop c _ u)
    | cons d b =>
      rw [List.flatMap_cons, List.append_assoc] at h
      obtain ⟨rfl, hrest⟩ := hcode h
      obtain ⟨rfl, htail⟩ := ih hrest
      exact ⟨rfl, htail⟩

theorem WritesStrings.quotes (h : WritesStrings p) : Quotes p where
  opens name := ⟨_, h name⟩
  delimited {name other after after'} heq := by
    rw [h, h, List.cons_append, List.cons_append, List.append_assoc, List.append_assoc] at heq
    have hopen (c : Char) : escapeChar c ≠ [] ∧ (escapeChar c).head? ≠ some '"' := by
      rcases escapeChar_cases c with hc | ⟨hc, hquote, -⟩
      · have hhead := escapedChars_head c hc
        constructor
        · intro hnil
          rw [hnil] at hhead
          cases hhead
        · rw [hhead]
          decide
      · rw [hc]
        simp [hquote]
    obtain ⟨hname, hafter⟩ := coded_cancel hopen escapeChar_cancel (List.cons.inj heq).2
    exact ⟨String.toList_inj.mp hname, hafter⟩

/-- Labels stand for one path each: dropping equal labels is dropping equal paths. -/
theorem sdjwtLabels_faithful (hserde : WritesStrings p) :
    (∀ path other, sdjwtPathString p path = sdjwtPathString p other → path = other) ∧
      ∀ a selected, visibleSdjwtClaims p a selected =
        (((collectJsonLeafPaths (.obj a.processed.claims) []).filter (leafIsVisible a selected)).foldl
          pushNew []).map (sdjwtPathString p) := by
  have hinjective := sdjwtPathString_injective hserde.quotes
  refine ⟨fun path other h => hinjective h, fun a selected => ?_⟩
  rw [visibleSdjwtClaims, ← List.foldl_map]
  exact Core.foldl_pushNew_map _ [] fun path _ other _ h => hinjective h

end Labels

/-- A platform that writes strings as `serde_json` does; a dotted name keeps apart from a nested one. -/
theorem sdjwtLabels_faithful_dotted :
    let p : Platform := { (default : Platform) with renderJson := fun
      | .str name => .ofList ('"' :: (name.toList.flatMap escapeChar ++ ['"']))
      | _ => "" }
    sdjwtPathString p [.name "a.b"] = "[\"a.b\"]" ∧
      ∀ other, sdjwtPathString p [.name "a.b"] = sdjwtPathString p other → [.name "a.b"] = other :=
  ⟨by decide, (sdjwtLabels_faithful fun _ => String.toList_ofList).1 _⟩

end EuWallet.Wallet
