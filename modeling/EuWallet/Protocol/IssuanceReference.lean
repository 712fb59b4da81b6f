import EuWallet.Protocol.Issuance
import Mathlib.Data.List.Induction

/-! # The reference model of the issuance machine

`oid4vci::model` abstracts from grants, formats and nonces. A step of the production machine is matched by at
most one model event (`Exchange.modelEvents`). The model never leaves `credentialIssued`; the production machine
does so on a decline, which it hears in every state. `exchanges_refine_iff` says that nothing else is between
the machine and the model. -/

namespace EuWallet.Protocol.Oid4vci.Model

inductive St where
  | idle
  | reviewingOffer
  | offerParsed
  | provingPossession
  | requestingCredential
  | credentialIssued
  | aborted
deriving DecidableEq

inductive Ev where
  | offer (trusted : Bool)
  | approveOffer
  | token (bound attested : Bool)
  | proof
  | credential (valid portraitProfileValid : Bool)
  | processDeath
deriving DecidableEq

structure Ctx where
  st : St
  issuerTrusted : Bool
  tokenBound : Bool
  proofKeyAttested : Bool
  portraitProfileValid : Bool
  holderApproved : Bool
deriving DecidableEq

def Ctx.init : Ctx := ⟨.idle, false, false, false, false, false⟩

def step (c : Ctx) : Ev → Ctx
  | .offer trusted =>
    if c.st = .idle then
      if trusted then { c with st := .reviewingOffer, issuerTrusted := true } else { c with st := .aborted }
    else c
  | .approveOffer =>
    if c.st = .reviewingOffer then { c with st := .offerParsed, holderApproved := true } else c
  | .token bound attested =>
    if c.st = .offerParsed then
      if !bound then { c with st := .aborted }
      else if !attested then { c with st := .aborted }
      else { c with st := .provingPossession, tokenBound := true, proofKeyAttested := true }
    else c
  | .proof => if c.st = .provingPossession then { c with st := .requestingCredential } else c
  | .credential valid portraitProfileValid =>
    if c.st = .requestingCredential then
      if valid && portraitProfileValid then { c with st := .credentialIssued, portraitProfileValid := true }
      else { c with st := .aborted }
    else c
  | .processDeath =>
    if c.st = .reviewingOffer ∨ c.st = .offerParsed ∨ c.st = .provingPossession ∨ c.st = .requestingCredential then
      { c with st := .aborted }
    else c

def run (evs : List Ev) : Ctx := evs.foldl step .init

theorem run_append (evs more : List Ev) : run (evs ++ more) = more.foldl step (run evs) :=
  List.foldl_append

/-- The states in which the model stays. -/
def St.Terminal (st : St) : Prop := st = .credentialIssued ∨ st = .aborted

theorem step_terminal {c : Ctx} (h : c.st.Terminal) (e : Ev) : step c e = c := by
  cases e <;> rcases h with h | h <;> simp [step, h]

theorem foldl_terminal {c : Ctx} (h : c.st.Terminal) (evs : List Ev) : evs.foldl step c = c := by
  induction evs with
  | nil => rfl
  | cons e evs ih => rw [List.foldl_cons, step_terminal h, ih]

end EuWallet.Protocol.Oid4vci.Model

namespace EuWallet.Protocol.Oid4vci

open Codec Crypto Lib

def State.image : State → Model.St
  | .idle => .idle
  | .reviewingOffer _ _ => .reviewingOffer
  | .offerParsed _ _ | .authorizing _ | .awaitingTxCode _ | .requestingToken _ => .offerParsed
  | .provingPossession _ _ => .provingPossession
  | .requestingCredential _ => .requestingCredential
  | .credentialIssued _ _ => .credentialIssued
  | .aborted _ => .aborted

def stateAfter (p : Platform) (inputs : List (Env × Input)) : State := (collect (respond p) .idle inputs).1

/-- After every input the model events so far have led the model to the image of the state. The events come in
one portion for each input. -/
def RefinesModel (p : Platform) (inputs : List (Env × Input)) : Prop :=
  ∃ portions : List (List Model.Ev), portions.length = inputs.length ∧
    ∀ n ≤ inputs.length, (Model.run (portions.take n).flatten).st = (stateAfter p (inputs.take n)).image

/-- A state that is terminal in the model is not left. -/
def KeepsTerminal (p : Platform) (inputs : List (Env × Input)) : Prop :=
  Always (fun _ k => k.before.image.Terminal → k.after.image = k.before.image) (exchanges p inputs)

def Exchange.DeclinesIssued (k : Exchange) : Prop :=
  (∃ format credential, k.before = .credentialIssued format credential) ∧ k.input.2 = .decline

/-- The model event between the images of two states. -/
def modelEvents (before after : Model.St) : List Model.Ev :=
  match before, after with
  | .idle, .reviewingOffer => [.offer true]
  | .idle, .aborted => [.offer false]
  | .reviewingOffer, .offerParsed => [.approveOffer]
  | .offerParsed, .provingPossession => [.token true true]
  | .provingPossession, .requestingCredential => [.proof]
  | .requestingCredential, .credentialIssued => [.credential true true]
  | .reviewingOffer, .aborted | .offerParsed, .aborted | .provingPossession, .aborted
  | .requestingCredential, .aborted => [.processDeath]
  | _, _ => []

section Refinement
variable {p : Platform} {env : Env} {input : Input} {s : State} {out : State × List Output}

theorem image_eq_credentialIssued : s.image = .credentialIssued ↔
    ∃ format credential, s = .credentialIssued format credential := by
  constructor
  · intro h
    cases s with
    | credentialIssued format credential => exact ⟨format, credential, rfl⟩
    | _ => cases h
  · rintro ⟨format, credential, rfl⟩
    rfl

theorem modelEvents_abort {c : Model.Ctx} (hissued : c.st ≠ .credentialIssued) :
    ((modelEvents c.st .aborted).foldl Model.step c).st = .aborted := by
  obtain ⟨st, issuerTrusted, tokenBound, proofKeyAttested, portraitProfileValid, holderApproved⟩ := c
  cases st <;> first | rfl | exact absurd rfl hissued

theorem Move.follows (h : Move p env s input out)
    (hdeclined : ¬ ((∃ format credential, s = .credentialIssued format credential) ∧ input = .decline))
    {c : Model.Ctx} (hstate : c.st = s.image) :
    ((modelEvents s.image out.1.image).foldl Model.step c).st = out.1.image := by
  have habort (hwaiting : ∀ f b, s ≠ .credentialIssued f b) :
      ((modelEvents s.image .aborted).foldl Model.step c).st = .aborted := by
    rw [← hstate]
    refine modelEvents_abort fun hissued => ?_
    obtain ⟨format, credential, hs⟩ := image_eq_credentialIssued.mp (hstate.symm.trans hissued)
    exact hwaiting format credential hs
  obtain ⟨st, issuerTrusted, tokenBound, proofKeyAttested, portraitProfileValid, holderApproved⟩ := c
  cases hstate
  cases h with
  | stays =>
    have hnone : modelEvents s.image s.image = [] := by cases s <;> rfl
    rw [hnone]
    rfl
  | refuses hwaiting | closes hwaiting => exact habort hwaiting
  | declines => exact habort fun f b hs => hdeclined ⟨⟨f, b, hs⟩, rfl⟩
  | reviews | pushes | prompts | requests | opens | returns | enters | proves | signs | issues => rfl

theorem stateAfter_concat (inputs : List (Env × Input)) (i : Env × Input) :
    stateAfter p (inputs ++ [i]) = (respond p (stateAfter p inputs) i).1 := by
  rw [stateAfter, collect_append]
  rfl

theorem exchange_at {inputs rest : List (Env × Input)} {i : Env × Input} :
    exchanges p (inputs ++ i :: rest) = exchanges p inputs ++
      callOf (respond p) (stateAfter p inputs) i :: calls (respond p) (stateAfter p (inputs ++ [i])) rest := by
  rw [exchanges, calls_append, stateAfter_concat]
  rfl

theorem refinesModel_of_follows (inputs : List (Env × Input))
    (hdeclined : Always (fun _ k => ¬ Exchange.DeclinesIssued k) (exchanges p inputs)) : RefinesModel p inputs := by
  induction inputs using List.reverseRecOn with
  | nil => exact ⟨[], rfl, fun n hn => by simp [Nat.le_zero.mp hn]; rfl⟩
  | append_singleton inputs i ih =>
    rw [exchange_at] at hdeclined
    have hearlier : Always (fun _ k => ¬ Exchange.DeclinesIssued k) (exchanges p inputs) := by
      intro pre k post hrun
      exact hdeclined pre k (post ++ _) (by rw [hrun, List.append_assoc, List.cons_append])
    obtain ⟨portions, hlength, hfollows⟩ := ih hearlier
    let portion := modelEvents (stateAfter p inputs).image (stateAfter p (inputs ++ [i])).image
    refine ⟨portions ++ [portion], by simp [hlength], fun n hn => ?_⟩
    rw [List.length_append, List.length_singleton] at hn
    rcases Nat.lt_or_ge inputs.length n with hlast | hold
    · obtain rfl : n = inputs.length + 1 := by omega
      have hbefore : (Model.run portions.flatten).st = (stateAfter p inputs).image := by
        have := hfollows inputs.length le_rfl
        rwa [List.take_of_length_le hlength.le, List.take_of_length_le le_rfl] at this
      have hmove : Move p i.1 (stateAfter p inputs) i.2 (respond p (stateAfter p inputs) i) := step_move _ _ _ _
      have hlast := hdeclined (exchanges p inputs) (callOf (respond p) (stateAfter p inputs) i) [] rfl
      have hafter := hmove.follows hlast hbefore
      rw [List.take_of_length_le (by simp [hlength]), List.take_of_length_le (by simp), List.flatten_append,
        List.flatten_singleton, Model.run_append]
      rw [← stateAfter_concat] at hafter
      exact hafter
    · have hold' : n ≤ portions.length := by omega
      rw [List.take_append_of_le_length hold', List.take_append_of_le_length hold]
      exact hfollows n hold

theorem Move.terminal (h : Move p env s input out)
    (hdeclined : ¬ ((∃ format credential, s = .credentialIssued format credential) ∧ input = .decline))
    (hterminal : s.image.Terminal) : out.1.image = s.image := by
  have hissued (hwaiting : ∀ f b, s ≠ .credentialIssued f b) : s.image = .aborted := by
    rcases hterminal with hissued | haborted
    · obtain ⟨format, credential, hs⟩ := image_eq_credentialIssued.mp hissued
      exact absurd hs (hwaiting format credential)
    · exact haborted
  cases h with
  | stays => rfl
  | refuses hwaiting | closes hwaiting => exact (hissued hwaiting).symm
  | declines => exact (hissued fun f b hs => hdeclined ⟨⟨f, b, hs⟩, rfl⟩).symm
  | reviews | pushes | prompts | requests | opens | returns | enters | proves | signs | issues =>
    rcases hterminal with h | h <;> cases h

end Refinement

/-- Every exchange of a run is a step of the machine. -/
theorem exchanges_result (p : Platform) (inputs : List (Env × Input)) :
    Always (fun _ k => respond p k.before k.input = (k.after, k.outputs)) (exchanges p inputs) :=
  calls_always (fun _ _ => True) (fun _ _ => True) trivial (fun _ _ _ _ _ => trivial) (fun _ _ _ _ _ => rfl) inputs
    (fun _ _ _ _ => trivial)

/-- **The machine refines the model, but for declines of what was issued.** There are model events that keep the
model with the machine after every input, and no terminal state is left, exactly if no input declines a credential
that has been issued. -/
theorem exchanges_refine_iff (p : Platform) (inputs : List (Env × Input)) :
    (RefinesModel p inputs ∧ KeepsTerminal p inputs) ↔
      Always (fun _ k => ¬ Exchange.DeclinesIssued k) (exchanges p inputs) := by
  constructor
  · rintro ⟨-, hterminal⟩ pre k post hrun ⟨⟨format, credential, hissued⟩, hdecline⟩
    have hkept := hterminal pre k post hrun (by rw [hissued]; exact .inl rfl)
    have hresult : step p k.input.1 k.before k.input.2 = (k.after, k.outputs) :=
      exchanges_result p inputs pre k post hrun
    have hafter : k.after = .aborted .userDeclined := by
      rw [hissued, hdecline] at hresult
      exact (congrArg Prod.fst hresult).symm
    rw [hafter, hissued] at hkept
    cases hkept
  · intro hdeclined
    refine ⟨refinesModel_of_follows inputs hdeclined, ?_⟩
    intro pre k post hrun hterminal
    have hmove : Move p k.input.1 k.before k.input.2 (respond p k.before k.input) := step_move _ _ _ _
    rw [exchanges_result p inputs pre k post hrun] at hmove
    exact hmove.terminal (hdeclined pre k post hrun) hterminal

/-- A decline after the credential was issued takes the machine where the model cannot follow. -/
theorem declined_unrefined : (stateAfter samplePlatform sampleInputs).image = .credentialIssued ∧
      (stateAfter samplePlatform (sampleInputs ++ [(Env.sample, .decline)])).image = .aborted ∧
      ¬ RefinesModel samplePlatform (sampleInputs ++ [(Env.sample, .decline)]) := by
  have hissued : (stateAfter samplePlatform sampleInputs).image = .credentialIssued := by decide
  have haborted : (stateAfter samplePlatform (sampleInputs ++ [(Env.sample, .decline)])).image = .aborted := by
    decide
  refine ⟨hissued, haborted, ?_⟩
  rintro ⟨portions, hlength, hfollows⟩
  -- the model has issued after six portions, and no events lead it on from there
  have hsix := hfollows 6 (by decide)
  have hseven := hfollows 7 (by decide)
  have htake : portions.take (6 + 1) = portions.take 6 ++ (portions.drop 6).take 1 := List.take_add
  rw [show (sampleInputs ++ [(Env.sample, Input.decline)]).take 7 = sampleInputs ++ [(Env.sample, Input.decline)] from rfl,
    haborted, htake, List.flatten_append, Model.run_append, Model.foldl_terminal (.inl hsix), hsix] at hseven
  cases hseven

end EuWallet.Protocol.Oid4vci
