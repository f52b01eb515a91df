import Mathlib.Logic.Function.Basic
import ArmControl.Lib.Run
import ArmControl.Rt.GroupInvariant

/-!
# The group start barrier

The servers of one host share the slots.  A step is a step of one member; what it reads of a peer is
that peer's slot (or nothing, when the read fails).

* `Host`           the members' configurations;
* `Host.step`      the interleaving of all their threads;
* `Barrier`        what a member knows about its peers, for a relation `Q j G` that only grows;
* `start_barrier`  the run theorem.
-/

namespace ArmControl.Rt
open Run Function

/-! ## one member -/

namespace Server

variable {cfg : ServerConfig} {ids : SessionIds} {s t : Server} {env : CtlEnv} {renv : RtEnv}

/-- the states a member only reaches through COMMITTED -/
def passed (st : GroupState) : Prop := st = .committed ∨ st = .running ∨ st = .done

/-- `Q j G`: member `j` was committed for group `G` -/
structure Barrier (cfg : ServerConfig) (Q : ℕ → ℕ → Prop) (s : Server) : Prop where
  polled : ∀ m gnow, s.pc = .poll m gnow true none → ∀ j < m, j ≠ s.loc.grp.index →
    Q j s.loc.grp.id
  released : s.pub.groupCommitted = true → s.loc.grp.hold = false →
    ∀ j < cfg.groupMembers, j ≠ cfg.groupMember → Q j s.loc.grp.id
  history : passed s.sh.slot.state → Q cfg.groupMember s.sh.slot.groupId

variable {Q : ℕ → ℕ → Prop}

theorem Barrier.congr {s s' : Server} (h : Barrier cfg Q s) (hc : s'.core = s.core) :
    Barrier cfg Q s' := by
  have hcore : Barrier cfg Q s.core := ⟨h.1, h.2, h.3⟩
  rw [← hc] at hcore
  exact ⟨hcore.1, hcore.2, hcore.3⟩

theorem Barrier.mono {Q' : ℕ → ℕ → Prop} (h : Barrier cfg Q s) (hQ : ∀ j G, Q j G → Q' j G) :
    Barrier cfg Q' s :=
  ⟨fun m gnow hp j hj hne => hQ _ _ (h.polled m gnow hp j hj hne),
    fun hc hh j hj hne => hQ _ _ (h.released hc hh j hj hne), fun hp => hQ _ _ (h.history hp)⟩

theorem Barrier.move (hinv : Inv cfg ids s) (h : Barrier cfg Q s) (hm : Move cfg ids s env t)
    (hread : ∀ m gnow release bad, s.pc = .poll m gnow release bad → env.snap.ok = true →
      passed env.snap.slot.state → Q m env.snap.slot.groupId)
    (hnew : t.sh.slot.state = .committed → Q cfg.groupMember t.sh.slot.groupId) :
    Barrier cfg Q t := by
  have hleft : s.leftSlot.state = .cancelled := rfl
  cases hm with
  | peer m gnow release release' bad bad' hpc hm hrel =>
    refine ⟨fun m' gnow' hp j hj hne => ?_, h.released, h.history⟩
    cases hp
    obtain ⟨hr, hb, hpeer⟩ := hrel rfl rfl
    rcases Nat.lt_succ_iff_lt_or_eq.mp hj with hj | rfl
    · exact h.polled m gnow (by rw [hpc, hr, hb]) j hj hne
    · obtain ⟨hok, hid, hst⟩ := hpeer hne
      show Q j s.loc.grp.id
      rw [← hid]
      exact hread j gnow release bad hpc hok (by simpa [passed] using hst)
  | release m gnow hpc hm =>
    -- every peer was read: the barrier has been reached
    have hj := (hinv.shape.commit (hinv.shape.hold (hinv.shape.poll _ _ _ _ hpc)).2).1
    obtain ⟨-, hcount, hindex, -⟩ := hinv.members.joined (by rw [hpc]; simp) hj
    refine ⟨fun m' gnow' hp => (by cases hp), fun _ _ j hlt hne => ?_, h.history⟩
    exact h.polled m gnow hpc j (by omega) (by rw [hindex]; exact hne)
  | _ =>
    obtain ⟨h1, h2, h3⟩ := h
    obtain ⟨k1, k2, k3, k4⟩ := hinv.shape
    obtain ⟨j1, j2, j3, j4⟩ := hinv.members
    constructor <;>
      grind -ring -linarith -order -ac [goto, quit, QuitOk, CtlPc.inRound, joins, committedSlot, goneSlot, passed]

/-- **A slot becomes RUNNING** only from COMMITTED, in its own group, after the release. -/
theorem Tick.start_spec (hinv : Inv cfg ids s) (hm : Tick cfg s renv t)
    (hrun : t.sh.slot.state = .running) (hne : t.sh.slot ≠ s.sh.slot) :
    s.sh.slot.state = .committed ∧ s.sh.slot.groupId = t.sh.slot.groupId ∧
      t.sh.slot.groupId = s.loc.grp.id ∧ s.pub.groupCommitted = true ∧ s.loc.grp.hold = false := by
  rcases hm.starts hinv.slots hrun with he | ⟨hc, hin, hsel, he, -⟩
  · exact absurd he hne
  have hh : s.loc.grp.hold = false := (hsel.waiting hinv.sessions.loaded hinv.tickets.loaded hin).2.2.2
  obtain ⟨hpc, hj, hid⟩ := hinv.slots.committed hc
  have hgid : t.sh.slot.groupId = s.loc.grp.id := by
    rw [he]
    exact (hinv.members.published hpc hj).2.1
  exact ⟨hc, hid.trans hgid.symm, hgid, hsel.committed, hh⟩

theorem Barrier.tick (hinv : Inv cfg ids s) (h : Barrier cfg Q s) (hm : Tick cfg s renv t) :
    Barrier cfg Q t := by
  have hhist : passed t.sh.slot.state → Q cfg.groupMember t.sh.slot.groupId := by
    intro hp
    by_cases he : t.sh.slot = s.sh.slot
    · rw [he] at hp ⊢
      exact h.history hp
    rcases hm.slot_cases with he' | ⟨-, -, -, ns, hs⟩ | ⟨hpc, -, hrun, hs⟩ |
      ⟨-, -, -, -, code, hs⟩ | ⟨-, -, -, hs⟩
    · exact absurd he' he
    · obtain ⟨hc, hid, -⟩ := hm.start_spec hinv (by rw [hs]; rfl) he
      rw [← hid]
      exact h.history (.inl hc)
    · have hid : t.sh.slot.groupId = s.sh.slot.groupId := by
        rw [hs]
        exact (hinv.slots.mid hpc hrun).symm
      rw [hid]
      exact h.history (.inr (.inl hrun))
    all_goals
      rw [hs] at hp
      rcases hp with hp | hp | hp <;> cases hp
  obtain ⟨r, slot, rfl⟩ := hm.frame
  exact ⟨h.1, h.2, hhist⟩

/-- what a member has read of a peer is true of it -/
def Reads (Q : ℕ → ℕ → Prop) (s : Server) : Event → Prop
  | .control env => ∀ m gnow release bad, s.pc = .poll m gnow release bad → env.snap.ok = true →
      passed env.snap.slot.state → Q m env.snap.slot.groupId
  | _ => True

theorem Barrier.step (hinv : Inv cfg ids s) (h : Barrier cfg Q s) {e : Event}
    (hread : Reads Q s e)
    (hnew : (s.step cfg ids e).sh.slot.state = .committed →
      Q cfg.groupMember (s.step cfg ids e).sh.slot.groupId) :
    Barrier cfg Q (s.step cfg ids e) := by
  obtain ⟨t, hc, hm⟩ := step_cases cfg ids s hinv.shape e
  refine Barrier.congr ?_ hc
  have hslot : (s.step cfg ids e).sh.slot = t.sh.slot := by
    show (s.step cfg ids e).core.sh.slot = t.core.sh.slot
    rw [hc]
  rw [hslot] at hnew
  cases hm with
  | same => exact h
  | move env _ hm _ => exact h.move hinv hm hread hnew
  | enter => exact ⟨h.1, h.2, h.3⟩
  | tick env _ ht => exact h.tick hinv ht

/-- the step that makes a slot RUNNING -/
theorem Barrier.start (hinv : Inv cfg ids s) (h : Barrier cfg Q s) {e : Event}
    (hrun : (s.step cfg ids e).sh.slot.state = .running)
    (hne : (s.step cfg ids e).sh.slot ≠ s.sh.slot) :
    s.sh.slot.state = .committed ∧ s.sh.slot.groupId = (s.step cfg ids e).sh.slot.groupId ∧
      ∀ j < cfg.groupMembers, j ≠ cfg.groupMember → Q j (s.step cfg ids e).sh.slot.groupId := by
  obtain ⟨t, hc, hm⟩ := step_cases cfg ids s hinv.shape e
  have hslot : (s.step cfg ids e).sh.slot = t.sh.slot := by
    show (s.step cfg ids e).core.sh.slot = t.core.sh.slot
    rw [hc]
  rw [hslot] at hrun hne ⊢
  cases hm with
  | same => exact absurd rfl hne
  | enter => exact absurd rfl hne
  | move env _ hm _ =>
    rcases hm.slot_cases with he | ⟨-, he⟩ | ⟨-, hst, -⟩ | ⟨-, he⟩ | ⟨-, -, -, he⟩
    · exact absurd he hne
    · rcases write_left s.sh.slot s.leftSlot rfl with hw | ⟨hw, -⟩
      · rw [he, hw] at hrun
        cases hrun
      · exact absurd (he.trans hw) hne
    · rw [hst] at hrun
      cases hrun
    · rw [he] at hrun
      cases hrun
    · rw [he] at hrun
      cases hrun
  | tick env _ ht =>
    obtain ⟨hc, hid, hgid, hcom, hh⟩ := ht.start_spec hinv hrun hne
    refine ⟨hc, hid, fun j hj hjne => ?_⟩
    rw [hgid]
    exact h.released hcom hh j hj hjne

end Server

/-! ## the members of one host -/

structure Host where
  n : ℕ
  two : 2 ≤ n
  four : n ≤ 4
  cfg : Fin n → ServerConfig
  ids : Fin n → SessionIds
  member : ∀ i, (cfg i).groupMember = i
  members : ∀ i, (cfg i).groupMembers = n

namespace Host

abbrev State (H : Host) : Type := Fin H.n → Server

variable (H : Host)

/-- `read_slot`: a copy of the member's slot; the world decides whether the bounded retries succeed -/
def readSlot (σ : H.State) (ok : Bool) (m : ℕ) : GroupSnapshot :=
  if h : m < H.n then
    if ok then
      { ok := true, slot := (σ ⟨m, h⟩).sh.slot, heartbeatNs := (σ ⟨m, h⟩).sh.heartbeatNs }
    else {}
  else {}

/-- what the shared segment shows to a step of a member -/
def sees (σ : H.State) (s : Server) : Server.Event → Server.Event
  | .control env =>
    .control { env with
      snap :=
        match s.pc with
        | .poll m _ _ _ => H.readSlot σ env.snap.ok m
        | _ => {}
      peers := fun m => H.readSlot σ (env.peers m).ok m }
  | .servo env => .servo { env with peers := fun m => H.readSlot σ (env.peers m).ok m }
  | e => e

/-- one member takes a step -/
def step (σ : H.State) (e : Fin H.n × Server.Event) : H.State :=
  update σ e.1 ((σ e.1).step (H.cfg e.1) (H.ids e.1) (H.sees σ (σ e.1) e.2))

def start : H.State := fun _ => {}

/-- a member never joins a group it was in before -/
def NeverReused (σ : H.State) (e : Fin H.n × Server.Event) : Prop :=
  Server.FreshIds (H.cfg e.1) (σ e.1) e.2

def CommittedFor (k : Fin H.n) (G : ℕ) (σ : H.State) : Prop :=
  (σ k).sh.slot.state = .committed ∧ (σ k).sh.slot.groupId = G

def RunningFor (k : Fin H.n) (G : ℕ) (σ : H.State) : Prop :=
  (σ k).sh.slot.state = .running ∧ (σ k).sh.slot.groupId = G

instance (σ : H.State) (e : Fin H.n × Server.Event) : Decidable (H.NeverReused σ e) :=
  inferInstanceAs (Decidable (Server.FreshIds _ _ _))

instance (k : Fin H.n) (G : ℕ) (σ : H.State) : Decidable (H.CommittedFor k G σ) :=
  inferInstanceAs (Decidable (_ ∧ _))

instance (k : Fin H.n) (G : ℕ) (σ : H.State) : Decidable (H.RunningFor k G σ) :=
  inferInstanceAs (Decidable (_ ∧ _))

/-- member `j` was committed for `G` at some point of the run -/
def Was (es : List (Fin H.n × Server.Event)) (j G : ℕ) : Prop :=
  ∃ h : j < H.n, Once H.step (H.CommittedFor ⟨j, h⟩ G) H.start es

variable {H}

theorem readSlot_ok {σ : H.State} {ok : Bool} {m : ℕ} (h : (H.readSlot σ ok m).ok = true) :
    ∃ hm : m < H.n, (H.readSlot σ ok m).slot = (σ ⟨m, hm⟩).sh.slot := by
  unfold readSlot at *
  by_cases hm : m < H.n
  · rw [dif_pos hm] at h ⊢
    cases ok
    · cases h
    · exact ⟨hm, rfl⟩
  · rw [dif_neg hm] at h
    cases h

theorem freshIds_sees {cfg : ServerConfig} {s : Server} {σ : H.State} {e : Server.Event}
    (h : Server.FreshIds cfg s e) : Server.FreshIds cfg s (H.sees σ s e) := by
  cases e <;> exact h

/-- the invariant of the host: every member's own, and its barrier over the history -/
def Inv (H : Host) (es : List (Fin H.n × Server.Event)) (σ : H.State) : Prop :=
  ∀ i, Server.Inv (H.cfg i) (H.ids i) (σ i) ∧ Server.Barrier (H.cfg i) (H.Was es) (σ i)

theorem reads_of_inv {es : List (Fin H.n × Server.Event)} {σ : H.State} (h : H.Inv es σ)
    (i : Fin H.n) (e : Server.Event) : Server.Reads (H.Was es) (σ i) (H.sees σ (σ i) e) := by
  cases e with
  | control env =>
    intro m gnow release bad hpc hok hp
    simp only [hpc] at hok hp ⊢
    obtain ⟨hm, hslot⟩ := readSlot_ok hok
    rw [hslot] at hp ⊢
    have hist := (h ⟨m, hm⟩).2.history hp
    rwa [H.member] at hist
  | _ => trivial

theorem Was.snoc {es : List (Fin H.n × Server.Event)} (e : Fin H.n × Server.Event) {j G : ℕ}
    (h : H.Was es j G) : H.Was (es ++ [e]) j G := by
  obtain ⟨hj, ho⟩ := h
  exact ⟨hj, ho.snoc e⟩

theorem Inv.mono {es : List (Fin H.n × Server.Event)} {σ : H.State} (h : H.Inv es σ)
    (e : Fin H.n × Server.Event) : H.Inv (es ++ [e]) σ :=
  fun i => ⟨(h i).1, (h i).2.mono fun _ _ => Was.snoc e⟩

theorem inv_snoc {es : List (Fin H.n × Server.Event)} {e : Fin H.n × Server.Event}
    (hids : H.NeverReused (run H.step H.start es) e) (h : H.Inv es (run H.step H.start es)) :
    H.Inv (es ++ [e]) (H.step (run H.step H.start es) e) := by
  intro i
  obtain ⟨hinv, hbar⟩ := h.mono e i
  by_cases hi : i = e.1
  swap
  · rw [step, update_of_ne hi]
    exact ⟨hinv, hbar⟩
  subst hi
  rw [step, update_self]
  refine ⟨hinv.step (freshIds_sees hids), hbar.step hinv (reads_of_inv (h.mono e) _ _) fun hc => ?_⟩
  -- a slot that is committed now was committed at some point of the run
  rw [H.member]
  refine ⟨e.1.isLt, Once.now ?_⟩
  rw [run_snoc, CommittedFor, step, update_self]
  exact ⟨hc, rfl⟩

theorem inv_start (H : Host) : H.Inv [] H.start :=
  fun i => ⟨Server.inv_init _ _, ⟨fun _ _ h => (by cases h), fun h => (by cases h),
    fun h => (by rcases h with h | h | h <;> cases h)⟩⟩

theorem inv_run {es : List (Fin H.n × Server.Event)} (h : Along H.step H.NeverReused H.start es) :
    H.Inv es (run H.step H.start es) :=
  invariant_hist (inv_start H) (fun _ _ _ hids hinv => inv_snoc hids hinv) h

/-- **The group start barrier.**  In every interleaving of the members' threads, with group ids never
reused: a slot becomes RUNNING for `G` only from COMMITTED for `G`, and only after every other
member's slot was COMMITTED for `G`. -/
theorem start_barrier (H : Host) (es : List (Fin H.n × Server.Event)) (e : Fin H.n × Server.Event)
    (hids : Along H.step H.NeverReused H.start (es ++ [e])) (k : Fin H.n) (G : ℕ)
    (hbefore : ¬ H.RunningFor k G (run H.step H.start es))
    (hrun : H.RunningFor k G (run H.step H.start (es ++ [e]))) :
    H.CommittedFor k G (run H.step H.start es) ∧
      ∀ j, j ≠ k → Once H.step (H.CommittedFor j G) H.start es := by
  have hinv := inv_run hids.init
  obtain ⟨hsrv, hbar⟩ := hinv k
  rw [run_snoc] at hrun
  by_cases hk : k = e.1
  swap
  · rw [RunningFor, step, update_of_ne hk] at hrun
    exact absurd hrun hbefore
  subst hk
  obtain ⟨hst, hgid⟩ := hrun
  rw [step, update_self] at hst hgid
  have hne : ((run H.step H.start es e.1).step (H.cfg e.1) (H.ids e.1)
      (H.sees (run H.step H.start es) (run H.step H.start es e.1) e.2)).sh.slot ≠
        (run H.step H.start es e.1).sh.slot := by
    intro he
    rw [he] at hst hgid
    exact hbefore ⟨hst, hgid⟩
  obtain ⟨hc, hid, hall⟩ := hbar.start hsrv hst hne
  refine ⟨⟨hc, hid.trans hgid⟩, fun j hj => ?_⟩
  have hwas := hall j (by rw [H.members]; exact j.isLt)
    (by rw [H.member]; exact fun h => hj (Fin.ext h))
  rw [hgid] at hwas
  exact hwas.choose_spec

/-! ## turns: several steps of one member in a row -/

/-- a step of member `i` while the others stand still -/
def memberStep (H : Host) (σ : H.State) (i : Fin H.n) (s : Server) (e : Server.Event) : Server :=
  s.step (H.cfg i) (H.ids i) (H.sees (update σ i s) s e)

def turn (H : Host) (σ : H.State) (t : Fin H.n × List Server.Event) : H.State :=
  update σ t.1 (run (H.memberStep σ t.1) (σ t.1) t.2)

/-- the interleaving in which each turn runs to its end -/
def events (ts : List (Fin H.n × List Server.Event)) : List (Fin H.n × Server.Event) :=
  ts.flatMap fun t => t.2.map (t.1, ·)

theorem step_member (σ : H.State) (i : Fin H.n) (s : Server) (e : Server.Event) :
    H.step (update σ i s) (i, e) = update σ i (H.memberStep σ i s e) := by
  simp only [step, memberStep, update_self, update_idem]

theorem run_member (σ : H.State) (i : Fin H.n) (s : Server) (es : List Server.Event) :
    run H.step (update σ i s) (es.map (i, ·)) = update σ i (run (H.memberStep σ i) s es) := by
  induction es generalizing s with
  | nil => rfl
  | cons e es ih => rw [List.map_cons, run_cons, step_member, ih, run_cons]

theorem along_member (σ : H.State) (i : Fin H.n) (s : Server) (es : List Server.Event)
    (h : Along (H.memberStep σ i) (Server.FreshIds (H.cfg i)) s es) :
    Along H.step H.NeverReused (update σ i s) (es.map (i, ·)) := by
  induction es generalizing s with
  | nil => exact along_nil
  | cons e es ih =>
    obtain ⟨h0, h⟩ := along_cons.mp h
    refine along_cons.mpr ⟨?_, ?_⟩
    · simpa only [NeverReused, update_self] using h0
    · rw [step_member]
      exact ih _ h

theorem run_turns (σ : H.State) (ts : List (Fin H.n × List Server.Event)) :
    run H.step σ (events ts) = run H.turn σ ts := by
  induction ts generalizing σ with
  | nil => rfl
  | cons t ts ih =>
    have h := run_member σ t.1 (σ t.1) t.2
    rw [update_eq_self] at h
    rw [events, List.flatMap_cons, run_append, h, run_cons]
    exact ih _

theorem along_turns (σ : H.State) (ts : List (Fin H.n × List Server.Event))
    (h : Along H.turn
      (fun σ t => Along (H.memberStep σ t.1) (Server.FreshIds (H.cfg t.1)) (σ t.1) t.2) σ ts) :
    Along H.step H.NeverReused σ (events ts) := by
  induction ts generalizing σ with
  | nil => exact along_nil
  | cons t ts ih =>
    obtain ⟨h0, h⟩ := along_cons.mp h
    have h1 := along_member σ t.1 (σ t.1) t.2 h0
    have h2 := run_member σ t.1 (σ t.1) t.2
    rw [update_eq_self] at h1 h2
    rw [events, List.flatMap_cons]
    refine h1.append ?_
    rw [h2]
    exact ih _ h

open Pair

abbrev pair : Host where
  n := 2
  two := le_refl 2
  four := by decide
  cfg i := pairConfig i
  ids _ := default
  member _ := rfl
  members _ := rfl

/-- both members commit, and the first one releases its hold -/
def meeting : List (Fin pair.n × List Server.Event) :=
  [((0 : Fin 2), joined 0), ((1 : Fin 2), joined 1), ((0 : Fin 2), commitGroup 0 2000),
    ((1 : Fin 2), commitGroup 1 2000), ((0 : Fin 2), release 3000)]

/-- the tick after it -/
def startTick : Fin pair.n × Server.Event := ((0 : Fin 2), .servo { now := 4000 })

theorem start_barrier_pair :
    pair.CommittedFor (0 : Fin 2) 5 (run pair.step pair.start (events meeting)) ∧
      ∀ j, j ≠ (0 : Fin 2) → Once pair.step (pair.CommittedFor j 5) pair.start (events meeting) := by
  have hall : events (meeting ++ [(startTick.1, [startTick.2])]) = events meeting ++ [startTick] := by
    simp [events]
  refine start_barrier pair (events meeting) startTick ?_ (0 : Fin 2) 5 ?_ ?_
  · rw [← hall]
    exact along_turns _ _ (by decide +kernel)
  · rw [run_turns]
    decide +kernel
  · rw [← hall, run_turns]
    decide +kernel

end Host

end ArmControl.Rt
