import ArmControl.Lib.Run
import ArmControl.Rt.GroupInvariant

/-!
# Selection stamps

The stamp of a group is the time of the tick that selected its commit.  It lives in a variable of
the tick (`groupStampNs`), is written with RUNNING and again with DONE.

* `Stamps`           which commit a COMMITTED slot waits for, and what the stamp of a RUNNING one is;
* `KeepsStamp`       no other commit is selected while the slot is RUNNING, and no second GROUP_COMMIT
                     is written over a finished or running one;
* `stamp_immutable`  then all values RUNNING or DONE of a group carry the time of its selection.
-/

namespace ArmControl.Rt
namespace Server
open Run

/-- the commit of the member's group and the stamp -/
structure Stamps (s : Server) : Prop where
  pending : s.loc.grp.isCommit = true → s.loc.pending = s.groupPending
  published : s.loc.grp.isCommit = true → s.loc.grp.hold = false → s.pub.referenceIn = s.groupPending
  first : s.loc.grp.isCommit = true → s.groupPending.request.revision = 1
  seen : s.rt.referenceSeen ≤ s.pub.referencePublished
  next : s.loc.grp.hold = true → s.loc.pending.ticket = s.pub.referencePublished + 1
  told : s.sh.slot.state = .committed → s.pc ≠ .commitWrite → s.pub.groupCommitted = true
  waits : s.sh.slot.state = .committed → s.pc ≠ .commitWrite →
    s.loc.grp.isCommit = true ∨ s.pub.groupEpoch ≠ low32 s.pub.armGen
  answered : s.sh.slot.state = .committed → s.loc.grp.isCommit = true → s.loc.grp.hold = false →
    ¬ s.inFlight → s.rt.referenceResult = .ok →
      s.sh.slotBusy = true ∨ s.pub.groupEpoch ≠ low32 s.pub.armGen
  running : s.sh.slot.state = .running → s.sh.slot.selectedNs = s.rt.groupStampNs

variable {cfg : ServerConfig} {ids : SessionIds} {s t : Server} {env : CtlEnv} {renv : RtEnv}

theorem Stamps.congr {s s' : Server} (h : s.Stamps) (hc : s'.core = s.core) : s'.Stamps := by
  have hcore : s.core.Stamps := ⟨h.1, h.2, h.3, h.4, h.5, h.6, h.7, h.8, h.9⟩
  rw [← hc] at hcore
  exact ⟨hcore.1, hcore.2, hcore.3, hcore.4, hcore.5, hcore.6, hcore.7, hcore.8, hcore.9⟩

theorem Stamps.move (hi : Inv cfg ids s) (h : s.Stamps) (hm : Move cfg ids s env t)
    (hb : t.sh.slotBusy = false) : t.Stamps := by
  obtain ⟨k1, k2, k3, k4⟩ := hi.shape
  obtain ⟨j1, j2, j3, j4, j5⟩ := hi.sessions
  obtain ⟨i1, i2, i3, i4⟩ := hi.members
  obtain ⟨l1, l2, l3, l4, l5, l6, l7⟩ := hi.tickets
  have hcom := hi.slots.committed
  obtain ⟨h1, h2, h3, h4, h5, h6, h7, h8, h9⟩ := h
  have hleft : s.leftSlot.state = .cancelled := rfl
  cases hm <;> constructor <;>
    grind -ring -linarith -order -ac [goto, quit, QuitOk, CtlPc.inRound, joins, inFlight, Current, committedSlot, goneSlot]

/-- a commit answered OK in a tick that leaves the slot COMMITTED: the stamp was contended, or the
group's epoch is not the tick's -/
theorem Tick.unstamped (hm : Tick cfg s renv t) (hc : t.sh.slot.state = .committed)
    (hin : s.inFlight) (hno : ¬ t.inFlight) (hok : t.rt.referenceResult = .ok)
    (hact : s.pub.groupActive = true) (hcom : s.pub.groupCommitted = true) :
    s.sh.slotBusy = true ∨ s.pub.groupEpoch ≠ low32 s.pub.armGen := by
  have hslot := hm.committed hc
  cases hm with
  | front s₁ _ hpc ha hh =>
    obtain ⟨-, -, -, hres, -⟩ := hh.keeps
    rw [hres] at hok
    cases ha with
    | idle h => exact absurd hin h
    | plain res h hep => exact .inr (hep hok hact hcom)
    | stamped h hsel hb hs =>
      exfalso
      cases hh with
      | retried _ _ _ hs' => cases hs'
      | _ => cases hc
    | contended h hsel hb => exact .inl hb
    | late h hsel hb hs => exact absurd (hslot ▸ hc) hs
  | _ => exact absurd hin hno

/-- a tick that answers no commit keeps the last answer -/
theorem Tick.result (hm : Tick cfg s renv t) (hno : ¬ s.inFlight) :
    t.rt.referenceResult = s.rt.referenceResult := by
  cases hm with
  | front s₁ _ hpc ha hh =>
    obtain ⟨-, -, -, hres, -⟩ := hh.keeps
    rw [hres]
    cases ha with
    | idle => rfl
    | plain _ h => exact absurd h hno
    | stamped h => exact absurd h hno
    | contended h => exact absurd h hno
    | late h => exact absurd h hno
  | _ => rfl

theorem Stamps.tick (hi : Inv cfg ids s) (h : s.Stamps) (hm : Tick cfg s renv t)
    (hns : s.sh.slot.state = .running → t.rt.groupStampNs = s.rt.groupStampNs) : t.Stamps := by
  have hcom : t.sh.slot.state = .committed → s.sh.slot.state = .committed :=
    fun hc => hm.committed hc ▸ hc
  have hseen : t.rt.referenceSeen ≤ s.pub.referencePublished := by
    rcases hm.seen with ⟨he, -⟩ | ⟨he, -⟩
    · rw [he]
      exact h.seen
    · exact he.le
  have hans : t.sh.slot.state = .committed → s.loc.grp.isCommit = true → s.loc.grp.hold = false →
      ¬ t.inFlight → t.rt.referenceResult = .ok →
        s.sh.slotBusy = true ∨ s.pub.groupEpoch ≠ low32 s.pub.armGen := by
    intro hc his hh hno hok
    by_cases hin : s.inFlight
    · obtain ⟨hpc, hj, -⟩ := hi.slots.committed (hcom hc)
      have hw : s.pc ≠ .commitWrite := by
        intro hw
        rw [hi.shape.write hw] at hh
        cases hh
      exact hm.unstamped hc hin hno hok (hi.members.published hpc hj).1 (h.told (hcom hc) hw)
    · exact h.answered (hcom hc) his hh hin (hm.result hin ▸ hok)
  have hrun : t.sh.slot.state = .running → t.sh.slot.selectedNs = t.rt.groupStampNs := by
    intro hr
    rcases hm.starts hi.slots hr with he | ⟨-, -, -, he, hst, -⟩
    · rw [he] at hr ⊢
      rw [hns hr]
      exact h.running hr
    · rw [he, hst]
      rfl
  obtain ⟨r, slot, rfl⟩ := hm.frame
  exact ⟨h.1, h.2, h.3, hseen, h.5, fun hc => h.6 (hcom hc), fun hc => h.7 (hcom hc), hans, hrun⟩

/-! ## the condition -/

/-- the tick selects the commit in flight, while this member is committed -/
def selects (cfg : ServerConfig) (s : Server) (now : ℕ) : Bool :=
  let r := s.rt.prepared cfg s.sh s.pub now
  r.inFlight s.pub && RtLoop.stamps s.pub (r.admitCommit s.pub now s.sh.fault).1

/-- group ids are not reused; the slot write of a GROUP_COMMIT finds no value of an earlier commit
of the group; and no tick selects another commit while the slot is RUNNING -/
def KeepsStamp (cfg : ServerConfig) (s : Server) : Event → Prop
  | .control env => FreshIds cfg s (.control env) ∧
      (s.pc = .commitWrite → s.sh.slot.state = .staged ∨ s.sh.slot.state = .committed)
  | .servo env => s.rt.pc = .front → env.readOk = true → s.sh.slot.state = .running →
      s.selects cfg env.now = false
  | _ => True

instance (cfg : ServerConfig) (s : Server) : DecidablePred (KeepsStamp cfg s)
  | .control _ => inferInstanceAs (Decidable (_ ∧ _))
  | .servo _ => inferInstanceAs (Decidable (_ → _ → _ → _))
  | .enterSlot | .datagram _ => isTrue trivial

theorem KeepsStamp.fresh {e : Event} (h : KeepsStamp cfg s e) : FreshIds cfg s e := by
  cases e with
  | control env => exact h.1
  | _ => trivial

/-- the stamp is rewritten only by a selection -/
theorem front_stamp (env : RtEnv) (h : env.readOk = true → s.selects cfg env.now = false) :
    (s.rt.front cfg s.sh s.pub env).1.groupStampNs = s.rt.groupStampNs := by
  unfold RtLoop.front
  by_cases hr : env.readOk = false
  · rw [if_pos hr]
  rw [if_neg hr]
  have hno := h (by simpa using hr)
  unfold selects at hno
  have hprep : (s.rt.prepared cfg s.sh s.pub env.now).groupStampNs = s.rt.groupStampNs := by
    obtain ⟨m, g, e, fb, d, q, ref, c, k, hp⟩ := RtLoop.prepared_frame cfg s.rt s.pub env.now s.sh
    rw [hp]
    rfl
  have hcommit : ((s.rt.prepared cfg s.sh s.pub env.now).commitStep s.sh.slot s.pub env.now
      s.sh.fault s.sh.slotBusy).1.groupStampNs = s.rt.groupStampNs := by
    unfold RtLoop.commitStep
    by_cases hin : (s.rt.prepared cfg s.sh s.pub env.now).inFlight s.pub = false
    · rw [if_pos hin]
      exact hprep
    rw [if_neg hin]
    have hst : RtLoop.stamps s.pub ((s.rt.prepared cfg s.sh s.pub env.now).admitCommit s.pub env.now
        s.sh.fault).1 = false := by
      simpa [Bool.eq_true_of_not_eq_false hin] using hno
    dsimp only
    rw [if_neg (by simp [hst])]
    exact hprep
  dsimp only
  obtain ⟨a, f, w, d, i, hhead⟩ := RtLoop.groupHead_frame cfg
    (((s.rt.prepared cfg s.sh s.pub env.now).commitStep s.sh.slot s.pub env.now s.sh.fault
      s.sh.slotBusy).1.publishReference env.now) s.pub
    ((s.rt.prepared cfg s.sh s.pub env.now).commitStep s.sh.slot s.pub env.now s.sh.fault
      s.sh.slotBusy).2 s.sh.slotBusy
  rw [hhead]
  exact hcommit

theorem KeepsStamp.stamp {env : RtEnv} (h : KeepsStamp cfg s (.servo env))
    (hc : (s.step cfg ids (.servo env)).core = t.core) (hm : Tick cfg s env t)
    (hr : s.sh.slot.state = .running) : t.rt.groupStampNs = s.rt.groupStampNs := by
  by_cases hpc : s.rt.pc = .front
  · have hns : (s.step cfg ids (.servo env)).rt.groupStampNs = t.rt.groupStampNs := by
      show (s.step cfg ids (.servo env)).core.rt.groupStampNs = t.core.rt.groupStampNs
      rw [hc]
    rw [← hns]
    show (s.rt.step cfg s.sh s.pub env).1.groupStampNs = _
    unfold RtLoop.step
    rw [hpc]
    exact front_stamp env fun hok => h hpc hok hr
  · cases hm with
    | front _ _ hp => exact absurd hp hpc
    | _ => rfl

theorem Stamps.step (hi : Inv cfg ids s) (h : s.Stamps) {e : Event} (hk : KeepsStamp cfg s e) :
    (s.step cfg ids e).Stamps := by
  obtain ⟨t, hc, hm⟩ := step_cases cfg ids s hi.shape e
  refine Stamps.congr ?_ hc
  cases hm with
  | same => exact h
  | move env _ hm hb => exact h.move hi hm hb
  | enter =>
    refine ⟨h.1, h.2, h.3, h.4, h.5, h.6, h.7, fun _ _ _ _ _ => .inl rfl, h.9⟩
  | tick env _ ht => exact h.tick hi ht fun hr => hk.stamp hc ht hr

/-! ## the values a group has shown -/

/-- the slot is RUNNING or DONE for `G` with this stamp -/
def Shows (s : Server) (G ns : ℕ) : Prop :=
  (s.sh.slot.state = .running ∨ s.sh.slot.state = .done) ∧ s.sh.slot.groupId = G ∧
    s.sh.slot.selectedNs = ns

instance (s : Server) (G ns : ℕ) : Decidable (s.Shows G ns) := inferInstanceAs (Decidable (_ ∧ _))

/-- the tick `env` selects the first-revision commit of the member's group `G` -/
def SelectsGroup (cfg : ServerConfig) (ids : SessionIds) (s : Server) (env : RtEnv) (G : ℕ) : Prop :=
  s.pub.groupId = G ∧ s.pub.referenceIn = s.groupPending ∧ s.groupPending.request.revision = 1 ∧
    s.rt.referenceDone ≠ s.groupPending.ticket ∧
    (s.step cfg ids (.servo env)).rt.referenceDone = s.groupPending.ticket ∧
    (s.step cfg ids (.servo env)).rt.referenceResult = .ok

/-- **One step of the values.**  What a slot shows after a step it showed before, or a tick has just
selected the commit of its group. -/
theorem Stamps.shows (hi : Inv cfg ids s) (h : s.Stamps) {e : Event} {G ns : ℕ}
    (hs : (s.step cfg ids e).Shows G ns) :
    s.Shows G ns ∨
      (s.sh.slot.state = .committed ∧ s.loc.grp.joined = true ∧ s.loc.grp.id = G ∧
        G ∈ s.joinedIds ∧ ∃ env, e = .servo env ∧ env.now = ns ∧ s.SelectsGroup cfg ids env G) := by
  obtain ⟨t, hc, hm⟩ := step_cases cfg ids s hi.shape e
  obtain ⟨hst, hG, hns⟩ := hs
  have hslot : (s.step cfg ids e).sh.slot = t.sh.slot := by
    show (s.step cfg ids e).core.sh.slot = t.core.sh.slot
    rw [hc]
  rw [hslot] at hst hG hns
  cases hm with
  | same => exact .inl ⟨hst, hG, hns⟩
  | enter => exact .inl ⟨hst, hG, hns⟩
  | move env _ hm _ =>
    refine .inl ?_
    rcases hm.slot_cases with he | ⟨-, he⟩ | ⟨-, hst', -⟩ | ⟨-, he⟩ | ⟨-, -, -, he⟩
    · rw [he] at hst hG hns
      exact ⟨hst, hG, hns⟩
    · rcases write_left s.sh.slot s.leftSlot rfl with hw | ⟨hw, -⟩
      · rw [he, hw] at hst
        rcases hst with hst | hst <;> cases hst
      · rw [he, hw] at hst hG hns
        exact ⟨hst, hG, hns⟩
    · rw [hst'] at hst
      rcases hst with hst | hst <;> cases hst
    all_goals
      rw [he] at hst
      rcases hst with hst | hst <;> cases hst
  | tick env _ ht =>
    rcases hst with hrun | hdone
    · rcases ht.starts hi.slots hrun with he | ⟨hcom, hin, hsel, he, -, -, hd, hres⟩
      · rw [he] at hrun hG hns
        exact .inl ⟨.inl hrun, hG, hns⟩
      right
      obtain ⟨hpc, hj, -⟩ := hi.slots.committed hcom
      obtain ⟨-, hid, -⟩ := hi.members.published hpc hj
      have hgid : s.loc.grp.id = G := by
        rw [← hG, he]
        exact hid.symm
      have hh : s.loc.grp.hold = false :=
        (hsel.waiting hi.sessions.loaded hi.tickets.loaded hin).2.2.2
      have hw : s.pc ≠ .commitWrite := by
        intro hw
        rw [hi.shape.write hw] at hh
        cases hh
      have hep : s.pub.groupEpoch = low32 s.pub.armGen := hsel.epoch
      have his : s.loc.grp.isCommit = true := (h.waits hcom hw).resolve_right (fun hne => hne hep)
      have hpend := h.published his hh
      have htick : s.groupPending.ticket = s.pub.referencePublished := by
        rw [← hpend]
        exact hin.2
      have hdone : ∀ x : Server, x.core = t.core → x.rt.referenceDone = t.rt.referenceDone ∧
          x.rt.referenceResult = t.rt.referenceResult := by
        intro x hx
        refine ⟨?_, ?_⟩
        · show x.core.rt.referenceDone = t.core.rt.referenceDone
          rw [hx]
        · show x.core.rt.referenceResult = t.core.rt.referenceResult
          rw [hx]
      refine ⟨hcom, hj, hgid, hgid ▸ (hi.members.joined hpc hj).2.2.2.2, env, rfl, ?_, ?_⟩
      · rw [← hns, he]
        rfl
      · refine ⟨hid.trans hgid, hpend, h.first his, ?_, ?_, ?_⟩
        · rw [htick, hi.tickets.done]
          exact fun heq => hin.1 heq.symm
        · rw [(hdone _ hc).1, hd, htick]
        · rw [(hdone _ hc).2, hres]
    · left
      rcases ht.slot_cases with he | ⟨-, -, -, n, he⟩ | ⟨hpc, -, hrun, he⟩ | ⟨-, -, -, -, code, he⟩ |
        ⟨-, -, -, he⟩
      · rw [he] at hdone hG hns
        exact ⟨.inr hdone, hG, hns⟩
      · rw [he] at hdone
        cases hdone
      · -- DONE carries the stamp of RUNNING
        refine ⟨.inl hrun, ?_, ?_⟩
        · rw [← hG, he]
          exact hi.slots.mid hpc hrun
        · rw [← hns, he, h.running hrun]
          rfl
      · rw [he] at hdone
        cases hdone
      · rw [he] at hdone
        cases hdone

/-- a member of `G` has nothing staged or committed for it any more -/
def Over (s : Server) (G : ℕ) : Prop :=
  s.loc.grp.joined = true → s.pc ≠ .closed → s.loc.grp.id = G →
    s.sh.slot.state ≠ .staged ∧ s.sh.slot.state ≠ .committed

theorem Over.move {G : ℕ} (h : s.Over G) (hG : G ∈ s.joinedIds) (hs : s.Shape)
    (hm : Move cfg ids s env t) (hk : KeepsStamp cfg s (.control env)) : t.Over G := by
  have hids := fun f g => hk.fresh.join (f := f) (g := g)
  have hwrite := hk.2
  have hleft : s.leftSlot.state = .cancelled := rfl
  have hcommit := hs.commit
  have hhold := hs.hold
  have hw := hs.write
  unfold Over at h ⊢
  cases hm <;> grind -ring -linarith -order -ac [goto, quit, QuitOk, CtlPc.inRound, committedSlot, goneSlot]

theorem Over.tick {G : ℕ} (h : s.Over G) (hm : Tick cfg s renv t) : t.Over G := by
  have hslot : t.sh.slot.state = .staged ∨ t.sh.slot.state = .committed → t.sh.slot = s.sh.slot := by
    intro hst
    rcases hm.slot_cases with he | ⟨-, -, -, ns, he⟩ | ⟨-, -, -, he⟩ | ⟨-, -, -, -, code, he⟩ |
      ⟨-, -, -, he⟩
    · exact he
    all_goals
      rw [he] at hst
      rcases hst with hst | hst <;> cases hst
  intro hj hpc hid
  obtain ⟨r, slot, rfl⟩ := hm.frame
  have hover := h hj hpc hid
  refine ⟨fun hst => ?_, fun hst => ?_⟩
  · exact hover.1 ((hslot (.inl hst)) ▸ hst)
  · exact hover.2 ((hslot (.inr hst)) ▸ hst)

theorem Over.step {G : ℕ} (h : s.Over G) (hG : G ∈ s.joinedIds) (hs : s.Shape) {e : Event}
    (hk : KeepsStamp cfg s e) : (s.step cfg ids e).Over G := by
  refine step_rule (P := fun s => s.Over G) hs (fun s s' hc h => ?_) (fun env t he hm => ?_)
    (fun _ => h) (fun env t _ ht => h.tick ht) h
  · have hcore : s.core.Over G := h
    rw [← hc] at hcore
    exact hcore
  · subst he
    exact h.move hG hs hm hk

theorem joinedIds_mem_step {G : ℕ} (hs : s.Shape) (hG : G ∈ s.joinedIds) (e : Event) :
    G ∈ (s.step cfg ids e).joinedIds := by
  refine step_rule (P := fun s => G ∈ s.joinedIds) hs (fun s s' hc h => ?_) (fun env t _ hm => ?_)
    (fun _ => hG) (fun env t _ ht => ?_) hG
  · have hcore : G ∈ s.core.joinedIds := h
    rw [← hc] at hcore
    exact hcore
  · cases hm with
    | join => exact List.mem_append_left _ hG
    | _ => exact hG
  · obtain ⟨r, slot, rfl⟩ := ht.frame
    exact hG

/-- what the run knows about a value the slot has shown -/
structure History (cfg : ServerConfig) (ids : SessionIds) (es : List Event) (s : Server) (G ns : ℕ) :
    Prop where
  joined : G ∈ s.joinedIds
  past : s.Over G
  same : ∀ ns', s.Shows G ns' → ns' = ns
  selected : ∃ pre env, pre ++ [Event.servo env] <+: es ∧
    (run (Server.step cfg ids) {} pre).SelectsGroup cfg ids env G ∧ env.now = ns

/-- the run invariant -/
structure StampInv (cfg : ServerConfig) (ids : SessionIds) (es : List Event) (s : Server) : Prop where
  inv : Inv cfg ids s
  stamps : s.Stamps
  history : ∀ G ns, Once (Server.step cfg ids) (fun s => s.Shows G ns) {} es →
    History cfg ids es s G ns

theorem History.step {es : List Event} {e : Event} {G ns : ℕ}
    (hi : Inv cfg ids s) (hst : s.Stamps) (hk : KeepsStamp cfg s e)
    (h : History cfg ids es s G ns) : History cfg ids (es ++ [e]) (s.step cfg ids e) G ns := by
  refine ⟨joinedIds_mem_step hi.shape h.joined e, h.past.step h.joined hi.shape hk, fun ns' hs => ?_,
    ?_⟩
  · rcases hst.shows hi hs with hs | ⟨hc, hj, hid, -⟩
    · exact h.same ns' hs
    · -- a second selection would need a COMMITTED slot of this group
      exact absurd hc (h.past hj (hi.slots.committed hc).1 hid).2
  · obtain ⟨pre, env, hpre, hsel, hns⟩ := h.selected
    exact ⟨pre, env, hpre.trans (List.prefix_append _ _), hsel, hns⟩

theorem StampInv.step {es : List Event} {e : Event}
    (h : StampInv cfg ids es (run (Server.step cfg ids) {} es))
    (hk : KeepsStamp cfg (run (Server.step cfg ids) {} es) e) :
    StampInv cfg ids (es ++ [e]) ((run (Server.step cfg ids) {} es).step cfg ids e) := by
  obtain ⟨hi, hst, hhist⟩ := h
  refine ⟨hi.step hk.fresh, hst.step hi hk, fun G ns honce => ?_⟩
  obtain ⟨pre, hpre, hs⟩ := honce
  rcases prefix_snoc_iff.mp hpre with hpre | rfl
  · exact (hhist G ns ⟨pre, hpre, hs⟩).step hi hst hk
  rw [run_snoc] at hs
  rcases hst.shows hi hs with hold | ⟨hc, hj, hid, hmem, env, rfl, hns, hsel⟩
  · exact (hhist G ns (Once.now hold)).step hi hst hk
  refine ⟨joinedIds_mem_step hi.shape hmem _, fun _ _ _ => ?_, fun ns' hs' => ?_,
    ⟨es, env, List.prefix_refl _, hsel, hns⟩⟩
  · rcases hs.1 with h | h <;> rw [h] <;> exact ⟨by decide, by decide⟩
  · exact hs'.2.2.symm.trans hs.2.2

/-- **Selection stamps are immutable.**  In every run that meets the condition, all values RUNNING or
DONE the slot shows for `G` carry one stamp: the time of the tick that selected the first-revision
commit of `G`. -/
theorem stamp_immutable (cfg : ServerConfig) (ids : SessionIds) (es mid : List Event)
    (h : Along (Server.step cfg ids) (KeepsStamp cfg) {} (es ++ mid)) (G ns ns' : ℕ)
    (hs : (run (Server.step cfg ids) {} es).Shows G ns)
    (hs' : (run (Server.step cfg ids) {} (es ++ mid)).Shows G ns') :
    ns' = ns ∧ ∃ pre env, pre ++ [Event.servo env] <+: es ∧
      (run (Server.step cfg ids) {} pre).SelectsGroup cfg ids env G ∧ env.now = ns := by
  have hinit : StampInv cfg ids [] {} := by
    refine ⟨inv_init cfg ids, ⟨by simp, by simp, by simp, by simp, by simp, by simp, by simp, by simp,
      by simp⟩, fun G ns honce => ?_⟩
    obtain ⟨pre, hpre, hs⟩ := honce
    rw [List.prefix_nil.mp hpre] at hs
    rcases hs.1 with h | h <;> cases h
  have hinv : ∀ {fs : List Event}, Along (Server.step cfg ids) (KeepsStamp cfg) {} fs →
      StampInv cfg ids fs (run (Server.step cfg ids) {} fs) := fun hfs =>
    invariant_hist hinit (fun _ _ _ hk hi => hi.step hk) hfs
  refine ⟨((hinv h).history G ns ⟨es, List.prefix_append _ _, hs⟩).same ns' hs', ?_⟩
  exact ((hinv (h.sub (List.prefix_append _ _))).history G ns (Once.now hs)).selected

/-! ## a running member -/

open Pair

/-- member 0 of a group of two selects its reference at 4 us -/
def started : List Event := joined 0 ++ commitGroup 0 2000 ++ release 3000 ++ groupTick 4000

/-- the reference runs to its end -/
theorem stamp_immutable_done :
    let s := run (Server.step (pairConfig 0) default) {} (started ++ groupTick 1000005000)
    s.sh.slot.state = .done ∧ s.sh.slot.selectedNs = 4000 := by
  refine ⟨by decide +kernel, ?_⟩
  exact (stamp_immutable (pairConfig 0) default started (groupTick 1000005000) (by decide +kernel) 5
    4000 _ (by decide +kernel) ⟨.inr (by decide +kernel), by decide +kernel, rfl⟩).1

/-- a plain COMMIT of revision 2 of the same reference, protected up to 1 s -/
def secondRevision : Body :=
  .referenceCommit
    { sessionId := 1, uploadId := 2, referenceId := 1, armEpoch := 1, expectedRevision := 1
      revision := 2, protectedUntil := ⟨0x3FF0000000000000#64⟩
      latestPhase := ⟨0x3FE0000000000000#64⟩ }

/-- it is uploaded, committed, and selected at 6 us; then the reference runs to its end -/
def revised : List Event :=
  List.replicate 3 (.control {}) ++ upload 2 2 5000 ++ deliver secondRevision 5000 ++
    groupTick 6000 ++ groupTick 1000005000

/-- DONE carries the time of the second selection -/
theorem revision_moves_stamp :
    (run (Server.step (pairConfig 0) default) {} started).Shows 5 4000 ∧
      (run (Server.step (pairConfig 0) default) {} (started ++ revised)).Shows 5 6000 :=
  ⟨by decide +kernel, by decide +kernel⟩

end Server

end ArmControl.Rt
