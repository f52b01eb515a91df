import ArmControl.EndEffectors.SimHandBridge
import ArmControl.Lib.Since

/-!
# What a session of the simulated Hand keeps

* `Current a`, `Sampled`, `Finished`   what a log can say about an action, a sample and a result;
* `Fair`                  what an entry says about the log before it;
* `Inv`                   what every state keeps, one lemma for each thing that happens, and `Inv.step`.
-/

namespace ArmControl.EndEffectors
namespace SimHandBridge
open Rt History

/-! ## what the log says -/

/-- the end of an action or of a stop -/
def ends : Obs → Bool
  | .ended _ | .stopEnded .. => true
  | _ => false

/-- the client came or went -/
def turns : Obs → Bool
  | .clientConnected | .clientLost => true
  | _ => false

/-- a stop, a disconnect or a reconnect, and the next admission -/
def overtakes : Obs → Bool
  | .admitted _ | .stopRequested | .clientConnected | .clientLost => true
  | _ => false

/-- `a` was admitted, and nothing has overtaken it -/
def Current (a : HandAction) : List Obs → Prop := Since (fun _ o => o = .admitted a) fun o => overtakes o = false

/-- a usable sample was taken after the last action or stop ended -/
def Sampled : List Obs → Prop := Since (fun _ o => o = .observed) fun o => ends o = false

/-- an action was done with this result for the client that is connected -/
def Finished (ok : Bool) (P : HandAction → Prop) : List Obs → Prop :=
  Since (fun _ o => ∃ a, o = .done a ok ∧ P a) fun o => turns o = false

/-- what an entry says about the log before it -/
def Fair (p : List Obs) : Obs → Prop
  | .dispatched a => Current a p ∧ Sampled p
  | .done a _ => Current a p
  | .doneLine token ok => Finished ok (fun a => a.token = token) p
  | .graspLine ok => Finished ok (fun a => a.kind = .grasp) p
  | _ => True

/-- entries that are fair after every log -/
def plain : Obs → Bool
  | .dispatched _ | .done .. | .doneLine .. | .graspLine _ => false
  | _ => true

theorem fair_of_plain {o : Obs} (h : plain o = true) (p : List Obs) : Fair p o := by
  cases o <;> cases h <;> trivial

/-! ## the invariant -/

structure Inv (s : SimHandBridge) : Prop where
  fair : Justified Fair s.log
  client : s.adm.client = s.serving
  acting : s.adm.acting = s.acting.isSome
  committed : s.adm.dispatchCommitted = s.adm.acting
  pending : ∀ a, s.adm.pending = some a → a.kind ≠ .none ∧ s.adm.client = true ∧ s.adm.acting = false ∧ s.adm.stopping = false ∧
    a.generation = s.adm.epoch ∧ Current a s.log ∧ Sampled s.log
  running : ∀ a, s.acting = some a → a.generation ≤ s.adm.epoch ∧
    (a.generation = s.adm.epoch → s.adm.stopping = false ∧ Current a s.log)
  real : s.haveReal = true → Sampled s.log
  done : s.serving = true → s.doneSeq ≠ s.seenDone → Finished s.doneOk (fun a => a.token = s.doneToken) s.log
  grasp : s.serving = true → s.graspSeq ≠ s.seenGrasp → Finished s.graspOk (fun a => a.kind = .grasp) s.log

theorem inv_new (limits : HandLimits) : Inv (new limits) where
  fair := justified_nil
  client := rfl
  acting := rfl
  committed := rfl
  pending := nofun
  running := nofun
  real := nofun
  done := nofun
  grasp := nofun

variable {s : SimHandBridge}

/-- everything that was admitted is overtaken -/
theorem Inv.overtaken (h : Inv s) {s' : SimHandBridge} (new : List Obs) (hlog : s'.log = s.log ++ new)
    (hnew : ∀ o ∈ new, plain o = true ∧ ends o = false) (hpending : s'.adm.pending = none) (hepoch : s'.adm.epoch = s.adm.epoch + 1)
    (hclient : s'.adm.client = s'.serving) (hacting : s'.acting = s.acting)
    (hflags : (s'.adm.acting, s'.adm.dispatchCommitted) = (s.adm.acting, s.adm.dispatchCommitted))
    (hreal : s'.haveReal = true → s.haveReal = true)
    (hdone : s'.serving = true → s'.doneSeq ≠ s'.seenDone → Finished s'.doneOk (fun a => a.token = s'.doneToken) s'.log)
    (hgrasp : s'.serving = true → s'.graspSeq ≠ s'.seenGrasp → Finished s'.graspOk (fun a => a.kind = .grasp) s'.log) : Inv s' := by
  obtain ⟨ha, hc⟩ := Prod.mk.inj hflags
  constructor
  case fair =>
    rw [hlog]
    exact h.fair.append fun o ho => fair_of_plain (hnew o ho).1
  case client => exact hclient
  case acting => rw [ha, hacting, h.acting]
  case committed => rw [ha, hc, h.committed]
  case pending =>
    intro a hp
    rw [hpending] at hp
    cases hp
  case running =>
    intro a hr
    rw [hacting] at hr
    rw [hepoch]
    have := (h.running a hr).1
    exact ⟨by omega, fun he => by omega⟩
  case real =>
    intro hr
    rw [hlog]
    exact (h.real (hreal hr)).append fun o ho => (hnew o ho).2
  case done => exact hdone
  case grasp => exact hgrasp

theorem Inv.connect (h : Inv s) : Inv s.connect :=
  h.overtaken [.clientConnected] rfl (by decide) rfl rfl rfl rfl rfl id (fun _ hn => absurd rfl hn) (fun _ hn => absurd rfl hn)

theorem Inv.gstop (h : Inv s) : Inv s.gstop := by
  refine h.overtaken [.stopRequested] rfl (by decide) rfl rfl h.client rfl rfl nofun ?_ ?_
  · exact fun hs hn => (h.done hs hn).snoc rfl
  · exact fun hs hn => (h.grasp hs hn).snoc rfl

theorem Inv.disconnect (h : Inv s) : Inv s.disconnect := by
  unfold SimHandBridge.disconnect
  dsimp only
  split_ifs
  · exact h.overtaken [.clientLost, .stopRequested] (List.append_assoc ..) (by decide) rfl rfl rfl rfl rfl nofun nofun nofun
  · exact h.overtaken [.clientLost] rfl (by decide) rfl rfl rfl rfl rfl id nofun nofun

theorem admit_cases (h : SimAdmission) (a : HandAction) (fresh : Bool) :
    (∃ r, h.admitAction a fresh = (.error r, h)) ∨
      (h.client = true ∧ h.stopping = false ∧ h.acting = false ∧ fresh = true ∧
        h.admitAction a fresh = (.ok { a with generation := h.epoch + 1 },
          { h with pending := some { a with generation := h.epoch + 1 }, epoch := h.epoch + 1 })) := by
  unfold SimAdmission.admitAction
  split_ifs with h₁ h₂ h₃ h₄ h₅
  · exact .inl ⟨_, rfl⟩
  · exact .inl ⟨_, rfl⟩
  · exact .inl ⟨_, rfl⟩
  · exact .inl ⟨_, rfl⟩
  · exact .inl ⟨_, rfl⟩
  · right
    rw [Bool.not_eq_true', Bool.not_eq_false] at h₁ h₅
    rw [Bool.or_eq_true, not_or, Bool.not_eq_true, Bool.not_eq_true] at h₄
    exact ⟨h₁, Bool.not_eq_true _ ▸ h₂, h₄.1, h₅, rfl⟩

theorem Inv.command (h : Inv s) {a : HandAction} (parsed : a.kind ≠ .none) (now : ℚ) : Inv (s.command a now) := by
  unfold SimHandBridge.command
  rcases admit_cases s.adm a (s.fresh now) with ⟨r, he⟩ | ⟨hclient, hstop, hacting, hfresh, he⟩
  · rw [he]
    exact h
  · rw [he]
    have hreal : s.haveReal = true := by
      unfold fresh at hfresh
      exact (Bool.and_eq_true_iff.mp hfresh).1
    have hnone : s.acting = none := by
      rw [h.acting] at hacting
      exact Option.isNone_iff_eq_none.mp (Option.isSome_eq_false_iff.mp hacting)
    constructor
    case fair => exact h.fair.snoc trivial
    case client => exact h.client
    case acting => exact h.acting
    case committed => exact h.committed
    case pending =>
      intro b hb
      obtain rfl := Option.some.inj hb
      exact ⟨parsed, hclient, hacting, hstop, rfl, Since.now rfl, (h.real hreal).snoc rfl⟩
    case running =>
      intro b hb
      have hb' : s.acting = some b := hb
      rw [hnone] at hb'
      cases hb'
    case real => exact fun hr => (h.real hr).snoc rfl
    case done => exact fun hs hn => (h.done hs hn).snoc rfl
    case grasp => exact fun hs hn => (h.grasp hs hn).snoc rfl

/-- one more entry, and the admission as it was -/
theorem Inv.told (h : Inv s) {s' : SimHandBridge} {o : Obs} (hlog : s'.log = s.log ++ [o]) (hfair : Fair s.log o)
    (ho : overtakes o = false ∧ ends o = false) (hsame : (s'.adm, s'.acting, s'.serving) = (s.adm, s.acting, s.serving))
    (hreal : s'.haveReal = true → Sampled s'.log)
    (hdone : s'.serving = true → s'.doneSeq ≠ s'.seenDone → Finished s'.doneOk (fun a => a.token = s'.doneToken) s'.log)
    (hgrasp : s'.serving = true → s'.graspSeq ≠ s'.seenGrasp → Finished s'.graspOk (fun a => a.kind = .grasp) s'.log) : Inv s' := by
  obtain ⟨hadm, hrest⟩ := Prod.mk.inj hsame
  obtain ⟨hacting, hserving⟩ := Prod.mk.inj hrest
  constructor
  case fair =>
    rw [hlog]
    exact h.fair.snoc hfair
  case client => rw [hadm, hserving, h.client]
  case acting => rw [hadm, hacting, h.acting]
  case committed => rw [hadm, h.committed]
  case pending =>
    intro a ha
    rw [hadm] at ha
    obtain ⟨hk, hc, hn, hs, hg, hcur, hsam⟩ := h.pending a ha
    rw [hadm, hlog]
    exact ⟨hk, hc, hn, hs, hg, hcur.snoc ho.1, hsam.snoc ho.2⟩
  case running =>
    intro a ha
    rw [hacting] at ha
    obtain ⟨hle, hcur⟩ := h.running a ha
    rw [hadm, hlog]
    exact ⟨hle, fun he => ⟨(hcur he).1, (hcur he).2.snoc ho.1⟩⟩
  case real => exact hreal
  case done => exact hdone
  case grasp => exact hgrasp

theorem Inv.pollGrasp (h : Inv s) (hs : s.serving = true) : Inv s.pollGrasp := by
  unfold SimHandBridge.pollGrasp
  split_ifs with hn
  · exact h
  · exact h.told rfl (h.grasp hs hn) ⟨rfl, rfl⟩ rfl (fun hr => (h.real hr).snoc rfl) (fun hs hn => (h.done hs hn).snoc rfl)
      (fun _ hn => absurd rfl hn)

theorem Inv.pollDone (h : Inv s) (hs : s.serving = true) : Inv s.pollDone := by
  unfold SimHandBridge.pollDone
  split_ifs with hn
  · exact h
  · exact h.told rfl (h.done hs hn) ⟨rfl, rfl⟩ rfl (fun hr => (h.real hr).snoc rfl) (fun _ hn => absurd rfl hn)
      (fun hs hn => (h.grasp hs hn).snoc rfl)

theorem pollGrasp_serving : s.pollGrasp.serving = s.serving := by
  unfold SimHandBridge.pollGrasp
  split_ifs <;> rfl

theorem Inv.observe (h : Inv s) (width : Value) (efforts : List Value) (now : ℚ) : Inv (s.observe width efforts now) := by
  unfold SimHandBridge.observe
  split_ifs
  · exact h.told rfl trivial ⟨rfl, rfl⟩ rfl (fun _ => Since.now rfl) (fun hs hn => (h.done hs hn).snoc rfl)
      (fun hs hn => (h.grasp hs hn).snoc rfl)
  · exact ⟨h.fair, h.client, h.acting, h.committed, h.pending, h.running, nofun, h.done, h.grasp⟩

theorem Inv.endStop (h : Inv s) (hstop : s.adm.stopping = true) (width : Value) : Inv (s.endStop width) where
  fair := h.fair.snoc trivial
  client := h.client
  acting := rfl
  committed := rfl
  pending a ha := absurd ((h.pending a ha).2.2.2.1) (by rw [hstop]; decide)
  running := nofun
  real := nofun
  done hs hn := (h.done hs hn).snoc rfl
  grasp hs hn := (h.grasp hs hn).snoc rfl

/-- the action is over -/
theorem Inv.ended (h : Inv s) {a : HandAction} (ha : s.acting = some a) :
    Inv ({ s with
      acting := none, adm := { s.adm with acting := false, dispatchCommitted := false }, haveReal := false }.note (.ended a)) where
  fair := h.fair.snoc trivial
  client := h.client
  acting := rfl
  committed := rfl
  pending b hb := by
    have hbusy := (h.pending b hb).2.2.1
    rw [h.acting, ha] at hbusy
    cases hbusy
  running := nofun
  real := nofun
  done hs hn := (h.done hs hn).snoc rfl
  grasp hs hn := (h.grasp hs hn).snoc rfl

/-- its result is for the client -/
theorem Inv.reported (h : Inv s) {a : HandAction} (ha : s.acting = some a) (hcurrent : s.adm.current a = true) (ok : Bool) :
    Inv ({ s with
      acting := none, adm := { s.adm with acting := false, dispatchCommitted := false }, haveReal := false
      doneToken := a.token, doneOk := ok, doneSeq := s.doneSeq + 1, log := s.log ++ [Obs.ended a] }.note (.done a ok)) := by
  have hended := h.ended ha
  have hgeneration : a.generation = s.adm.epoch := beq_iff_eq.mp (Bool.and_eq_true_iff.mp hcurrent).2
  have hown : Current a (s.log ++ [Obs.ended a]) := ((h.running a ha).2 hgeneration).2.snoc rfl
  exact hended.told rfl hown ⟨rfl, rfl⟩ rfl nofun (fun _ _ => Since.now ⟨a, rfl, rfl⟩) (fun hs hn => (hended.grasp hs hn).snoc rfl)

theorem Inv.finish (h : Inv s) {a : HandAction} (ha : s.acting = some a) (ok : Bool) : Inv (s.finish a ok) := by
  unfold SimHandBridge.finish
  dsimp only
  split_ifs with hcurrent hkind
  · have hdone := h.reported ha hcurrent ok
    exact ⟨hdone.fair, hdone.client, hdone.acting, hdone.committed, hdone.pending, hdone.running, hdone.real, hdone.done,
      fun _ _ => Since.now ⟨a, rfl, hkind⟩⟩
  · exact h.reported ha hcurrent ok
  · exact h.ended ha

theorem Inv.fingers (h : Inv s) (f : Fingers) : Inv { s with fingers := f } :=
  ⟨h.fair, h.client, h.acting, h.committed, h.pending, h.running, h.real, h.done, h.grasp⟩

theorem Inv.advance (h : Inv s) {a : HandAction} (ha : s.acting = some a) (width : Value) (now : ℚ) : Inv (s.advance a width now) := by
  unfold SimHandBridge.advance
  dsimp only
  cases (s.fingers.tick width now).1 with
  | none => exact h.fingers _
  | some ok => exact (h.fingers (s.fingers.tick width now).2).finish ha ok

/-- what is pending is taken -/
theorem take_pending (h : Inv s) {a : HandAction} (hp : s.adm.pending = some a) :
    s.adm.take = (some a, { s.adm with pending := none, acting := true, dispatchCommitted := true }) := by
  obtain ⟨-, hclient, hacting, hstop, hgeneration, -, -⟩ := h.pending a hp
  unfold SimAdmission.take SimAdmission.current
  rw [hp]
  dsimp only
  rw [hclient, hacting, hstop, hgeneration]
  simp

theorem take_none (hp : s.adm.pending = none) : s.adm.take = (none, s.adm) := by
  unfold SimAdmission.take
  rw [hp]

theorem Inv.startPending (h : Inv s) (width : Value) (now : ℚ) : Inv (s.startPending width now) := by
  unfold SimHandBridge.startPending
  cases hp : s.adm.pending with
  | none =>
    rw [take_none hp]
    exact h
  | some a =>
    rw [take_pending h hp]
    obtain ⟨hkind, hclient, hacting, hstop, hgeneration, hcurrent, hsampled⟩ := h.pending a hp
    constructor
    case fair => exact h.fair.snoc ⟨hcurrent, hsampled⟩
    case client => exact h.client
    case acting => rfl
    case committed => rfl
    case pending => exact nofun
    case running =>
      intro b hb
      obtain rfl := Option.some.inj hb
      exact ⟨hgeneration.le, fun _ => ⟨hstop, hcurrent.snoc rfl⟩⟩
    case real => exact fun hr => (h.real hr).snoc rfl
    case done => exact fun hs hn => (h.done hs hn).snoc rfl
    case grasp => exact fun hs hn => (h.grasp hs hn).snoc rfl

theorem observe_acting (width : Value) (efforts : List Value) (now : ℚ) : (s.observe width efforts now).acting = s.acting := by
  unfold SimHandBridge.observe
  split_ifs <;> rfl

theorem Inv.onSample (h : Inv s) (positions efforts : List Value) (now : ℚ) : Inv (s.onSample positions efforts now).2 := by
  unfold SimHandBridge.onSample
  dsimp only
  split_ifs with hstop
  · exact h.endStop hstop _
  · have hseen := h.observe (measured positions) efforts now
    split
    · rename_i a ha
      exact hseen.advance ha _ _
    · exact hseen.startPending _ _

theorem Inv.step (h : Inv s) (e : Event) : Inv (s.step e) := by
  cases e with
  | connect =>
    show Inv (if s.serving then s else s.connect)
    split_ifs
    · exact h
    · exact h.connect
  | gstop =>
    show Inv (if s.serving then s.gstop else s)
    split_ifs
    · exact h.gstop
    · exact h
  | command a parsed now =>
    show Inv (if s.serving then s.command a now else s)
    split_ifs
    · exact h.command parsed now
    · exact h
  | poll =>
    show Inv (if s.serving then s.pollGrasp.pollDone else s)
    split_ifs with hs
    · exact (h.pollGrasp hs).pollDone (pollGrasp_serving.trans hs)
    · exact h
  | disconnect =>
    show Inv (if s.serving then s.disconnect else s)
    split_ifs
    · exact h.disconnect
    · exact h
  | sample positions efforts now => exact h.onSample positions efforts now

end SimHandBridge
end ArmControl.EndEffectors
