import ArmControl.Rt.TickMoves

/-!
# The group invariant of one server
-/

namespace ArmControl.Rt
namespace Server

/-- the session of the client being served, and the ARM epoch of a membership -/
structure Sessions (ids : SessionIds) (s : Server) : Prop where
  own : s.pc ≠ .closed → 0 < s.opened ∧ s.loc.session = ids.id (s.opened - 1)
  live : s.pc ≠ .closed → s.pc ≠ .groupEnd → s.pub.sessionId = s.loc.session
  gone : s.pc = .closed ∨ s.pc = .groupEnd → s.pub.sessionId = 0
  epoch : s.pc ≠ .closed → s.loc.grp.joined = true → s.pub.armGen = s.loc.grp.epoch
  armed : s.pc.inRound = true → s.loc.grp.joined = true → s.pub.armed = true

/-- what the tick is told about the membership is what the control thread has in its locals -/
structure Membership (cfg : ServerConfig) (s : Server) : Prop where
  active : s.pub.groupActive = true → s.pc ≠ .closed ∧ s.loc.grp.joined = true
  published : s.pc ≠ .closed → s.loc.grp.joined = true →
    s.pub.groupActive = true ∧ s.pub.groupId = s.loc.grp.id ∧
      s.pub.groupSession = s.loc.session ∧ s.pub.groupEpoch = s.loc.grp.epoch
  joined : s.pc ≠ .closed → s.loc.grp.joined = true →
    cfg.groupEnabled = true ∧ s.loc.grp.count = cfg.groupMembers ∧
      s.loc.grp.index = cfg.groupMember ∧ s.loc.grp.id ≠ 0 ∧ s.loc.grp.id ∈ s.joinedIds
  committed : s.pub.groupCommitted = true → s.pub.groupActive = true

/-- the published commit can not be selected any more -/
def Dead (ids : SessionIds) (s : Server) : Prop :=
  s.pub.referenceIn.cancelGeneration < s.pub.referenceCancelGeneration ∨
    ∃ k, s.pub.referenceIn.request.sessionId = ids.id k ∧ k < s.opened ∧
      (k + 1 < s.opened ∨ s.pc = .closed ∨ s.pc = .groupEnd)

/-- the commit the control thread waits for is the published one, and no other one is selectable -/
structure Tickets (ids : SessionIds) (s : Server) : Prop where
  ticket : s.pub.referenceIn.ticket = s.pub.referencePublished
  done : s.rt.referenceDone = s.rt.referenceSeen
  pending : s.loc.commitWaiting = true → s.loc.grp.hold = false → s.pub.referenceIn = s.loc.pending
  request : s.loc.commitWaiting = true →
    s.loc.pending.request.sessionId = s.loc.session ∧ s.loc.pending.request.referenceId ≠ 0
  inGen : s.pub.referenceIn.cancelGeneration ≤ s.pub.referenceCancelGeneration
  pendGen : s.loc.pending.cancelGeneration ≤ s.pub.referenceCancelGeneration
  flight : s.inFlight →
    (s.pc ≠ .closed ∧ s.pc ≠ .groupEnd ∧ s.loc.commitWaiting = true ∧ s.loc.grp.hold = false) ∨
      Dead ids s

/-- the slot of this member -/
structure Slots (s : Server) : Prop where
  committed : s.sh.slot.state = .committed →
    s.pc ≠ .closed ∧ s.loc.grp.joined = true ∧ s.sh.slot.groupId = s.loc.grp.id
  running : s.sh.slot.state = .running → s.pub.groupActive = true →
    s.sh.slot.groupId = s.pub.groupId
  mid : s.rt.pc = .done → s.sh.slot.state = .running → s.sh.slot.groupId = s.rt.pub.groupId
  fresh : s.loc.grp.isCommit = true → s.loc.grp.hold = true ∨ s.inFlight → s.pc ≠ .commitWrite →
    s.sh.slot.state ≠ .running ∧ s.sh.slot.state ≠ .done
  stamp : s.rt.groupStampPending = true → s.rt.groupTickId ∈ s.joinedIds ∧
    ((s.sh.slotBusy = true ∧ s.pc ≠ .commitWrite) ∨ s.pub.groupActive = false ∨
      s.pub.groupId ≠ s.rt.groupTickId)

variable {cfg : ServerConfig} {ids : SessionIds} {s t : Server} {env : CtlEnv} {renv : RtEnv}

theorem Shape.move (h : s.Shape) (hm : Move cfg ids s env t) : t.Shape := by
  obtain ⟨h1, h2, h3, h4⟩ := h
  cases hm <;> constructor <;> grind -ring -linarith -order -ac [goto, quit, QuitOk]

theorem Sessions.move (h : Sessions ids s) (hm : Move cfg ids s env t) : Sessions ids t := by
  obtain ⟨h1, h2, h3, h4, h5⟩ := h
  cases hm <;> constructor <;> grind -ring -linarith -order -ac [goto, quit, QuitOk, CtlPc.inRound]

theorem Membership.move (hs : s.Shape) (h : Membership cfg s) (hm : Move cfg ids s env t) :
    Membership cfg t := by
  obtain ⟨h1, h2, h3, h4⟩ := h
  obtain ⟨k1, k2, k3, k4⟩ := hs
  cases hm <;> constructor <;> grind -ring -linarith -order -ac [goto, quit, QuitOk, CtlPc.inRound, joins]

theorem Tickets.move (hs : s.Shape) (hse : Sessions ids s) (hsl : Slots s) (h : Tickets ids s)
    (hm : Move cfg ids s env t) : Tickets ids t := by
  obtain ⟨h1, h2, h3, h4, h5, h6, h7⟩ := h
  obtain ⟨k1, k2, k3, k4⟩ := hs
  obtain ⟨j1, j2, j3, j4, j5⟩ := hse
  have hfresh := hsl.fresh
  cases hm <;> constructor <;> grind -ring -linarith -order -ac [goto, quit, QuitOk, CtlPc.inRound, joins, inFlight, Dead, Current]

/-- group ids are never reused: an accepted JOIN names a group this member was never in -/
def FreshIds (cfg : ServerConfig) (s : Server) : Event → Prop
  | .control env =>
    match env.frame.map ControlPacket.body with
    | some (.groupJoin g) => s.joins cfg g = true → g.groupId ∉ s.joinedIds
    | _ => True
  | _ => True

instance (cfg : ServerConfig) (s : Server) : DecidablePred (FreshIds cfg s)
  | .control env =>
    match h : env.frame.map ControlPacket.body with
    | some (.groupJoin g) =>
      decidable_of_iff (s.joins cfg g = true → g.groupId ∉ s.joinedIds) (by simp [FreshIds, h])
    | _ => by
      unfold FreshIds
      dsimp only
      split <;> infer_instance
  | .enterSlot | .servo _ | .datagram _ => isTrue trivial

@[grind =>]
theorem write_left (slot new : GroupSlot) (hnew : new.state = .cancelled) :
    (slot.write new leaveStates).state = .cancelled ∨
      (slot.write new leaveStates = slot ∧ (slot.state = .faulted ∨ slot.state = .done)) := by
  rcases GroupSlot.write_cases slot new leaveStates with ⟨h, -⟩ | ⟨h, ha⟩
  · exact .inl (by rw [h, hnew])
  · refine .inr ⟨h, ?_⟩
    cases hs : slot.state <;> simp_all [leaveStates, liveStates]

theorem FreshIds.join (h : FreshIds cfg s (.control env)) {f : ControlPacket}
    {g : GroupMemberPayload} (hf : env.frame = some f) (hb : f.body = .groupJoin g)
    (hj : s.joins cfg g = true) : g.groupId ∉ s.joinedIds := by
  simp only [FreshIds, hf, Option.map_some, hb] at h
  exact h hj

theorem Slots.move (hs : s.Shape) (hme : Membership cfg s) (h : Slots s)
    (hm : Move cfg ids s env t) (hbusy : t.sh.slotBusy = false)
    (hfresh : FreshIds cfg s (.control env)) : Slots t := by
  obtain ⟨h1, h2, h3, h4, h5⟩ := h
  obtain ⟨k1, k2, k3, k4⟩ := hs
  obtain ⟨j1, j2, j3, j4⟩ := hme
  have hleft : s.leftSlot.state = .cancelled := rfl
  have hids := fun f g => hfresh.join (f := f) (g := g)
  cases hm <;> constructor <;> grind -ring -linarith -order -ac [goto, quit, QuitOk, CtlPc.inRound, joins, inFlight, committedSlot, goneSlot]

/-! ## ticks -/

theorem Sessions.loaded (h : Sessions ids s) : Sessions ids s.loaded := ⟨h.1, h.2, h.3, h.4, h.5⟩

theorem Membership.loaded (h : Membership cfg s) : Membership cfg s.loaded := ⟨h.1, h.2, h.3, h.4⟩

theorem Tickets.loaded (h : Tickets ids s) : Tickets ids s.loaded :=
  ⟨h.1, h.2, h.3, h.4, h.5, h.6, h.7⟩

/-- a commit that stamps is the one the control thread waits for -/
theorem Selects.waiting (hse : Sessions ids s) (ht : Tickets ids s) (hin : s.inFlight)
    (hsel : s.Selects) : s.pc ≠ .closed ∧ s.pc ≠ .groupEnd ∧ s.loc.commitWaiting = true ∧
      s.loc.grp.hold = false := by
  refine (ht.flight hin).resolve_right ?_
  rintro (hgen | ⟨k, hk, hlt, hold⟩)
  · exact absurd hsel.generation hgen.ne
  have hnot : ¬ (s.pc = .closed ∨ s.pc = .groupEnd) := fun h => hsel.nonzero (hse.gone h)
  rw [not_or] at hnot
  have hsess : ids.id k = ids.id (s.opened - 1) := by
    rw [← hk, hsel.session, hse.live hnot.1 hnot.2, (hse.own hnot.1).2]
  have hk' := ids.injective hsess
  have hlast : k + 1 < s.opened := hold.resolve_right (by tauto)
  omega

/-- and the tick enforces the group rules in the same tick -/
theorem Selects.inGroup (hse : Sessions ids s) (hme : Membership cfg s) (hsel : s.Selects) :
    RtLoop.inGroup cfg s.pub = true := by
  obtain ⟨hpc, hj⟩ := hme.active hsel.active
  obtain ⟨-, -, hgs, -⟩ := hme.published hpc hj
  have hgone : s.pc ≠ .groupEnd := fun h => hsel.nonzero (hse.gone (.inr h))
  simp [RtLoop.inGroup, (hme.joined hpc hj).1, hsel.active, hsel.armed, hgs,
    hse.live hpc hgone, hsel.epoch]

/-- a tick changes nothing but its own state and the slot -/
theorem Tick.frame (h : Tick cfg s renv t) : ∃ r slot, t = { s with
    rt := r, sh := { s.sh with slot := slot } } := by
  cases h with
  | front s₁ _ hpc ha hh =>
    have h1 : ∃ r slot, s₁ = { s with rt := r, sh := { s.sh with slot := slot } } := by
      cases ha <;> exact ⟨_, _, rfl⟩
    obtain ⟨r, slot, rfl⟩ := h1
    cases hh <;> exact ⟨_, _, rfl⟩
  | _ => exact ⟨_, _, rfl⟩

theorem Shape.tick (h : s.Shape) (ht : Tick cfg s renv t) : t.Shape := by
  obtain ⟨r, slot, rfl⟩ := ht.frame
  exact ⟨h.1, h.2, h.3, h.4⟩

theorem Sessions.tick (h : Sessions ids s) (ht : Tick cfg s renv t) : Sessions ids t := by
  obtain ⟨r, slot, rfl⟩ := ht.frame
  exact ⟨h.1, h.2, h.3, h.4, h.5⟩

theorem Membership.tick (h : Membership cfg s) (ht : Tick cfg s renv t) : Membership cfg t := by
  obtain ⟨r, slot, rfl⟩ := ht.frame
  exact ⟨h.1, h.2, h.3, h.4⟩

/-- the head of the group section keeps what the answer left -/
theorem Head.keeps (h : Head cfg s t) :
    t.rt.pub = s.rt.pub ∧ t.rt.referenceSeen = s.rt.referenceSeen ∧
      t.rt.referenceDone = s.rt.referenceDone ∧ t.rt.referenceResult = s.rt.referenceResult ∧
      t.rt.groupStampNs = s.rt.groupStampNs ∧
      (t.rt.pc = .done → RtLoop.inGroup cfg s.pub = true) := by
  have hscope : ∃ a b c d e, s.rt.scopeGroup s.pub = { s.rt with
      groupTripped := a, groupFaultMirrored := b, groupStampPending := c, groupDone := d
      groupTickId := e } := by
    unfold RtLoop.scopeGroup
    split_ifs
    · exact ⟨_, _, _, _, _, rfl⟩
    · exact ⟨s.rt.groupTripped, s.rt.groupFaultMirrored, s.rt.groupStampPending, s.rt.groupDone,
        s.rt.groupTickId, rfl⟩
  obtain ⟨a, b, c, d, e, hscope⟩ := hscope
  cases h with
  | outside | inactive => exact ⟨rfl, rfl, rfl, rfl, rfl, fun h => by cases h⟩
  | settled hin | retried hin | dropped hin | waits hin =>
    rw [hscope]
    exact ⟨rfl, rfl, rfl, rfl, rfl, fun _ => hin⟩

/-- a tick answers the published commit or leaves it in flight -/
theorem Tick.seen (h : Tick cfg s renv t) :
    (t.rt.referenceSeen = s.rt.referenceSeen ∧ t.rt.referenceDone = s.rt.referenceDone) ∨
      (t.rt.referenceSeen = s.pub.referencePublished ∧
        t.rt.referenceDone = s.pub.referencePublished) := by
  cases h with
  | front s₁ _ hpc ha hh =>
    obtain ⟨-, hseen, hdone, -⟩ := hh.keeps
    rw [hseen, hdone]
    cases ha with
    | idle => exact .inl ⟨rfl, rfl⟩
    | _ => exact .inr ⟨rfl, rfl⟩
  | _ => exact .inl ⟨rfl, rfl⟩

theorem Tick.inFlight (h : Tick cfg s renv t) (hin : t.inFlight) : s.inFlight := by
  have hseen := h.seen
  obtain ⟨r, slot, rfl⟩ := h.frame
  rcases hseen with ⟨e1, -⟩ | ⟨e1, -⟩
  · refine ⟨?_, hin.2⟩
    rw [← e1]
    exact hin.1
  · exact absurd e1.symm hin.1

theorem Tickets.tick (h : Tickets ids s) (ht : Tick cfg s renv t) : Tickets ids t := by
  have hseen := ht.seen
  have hfl := fun hin => h.flight (ht.inFlight hin)
  obtain ⟨r, slot, rfl⟩ := ht.frame
  refine ⟨h.1, ?_, h.3, h.4, h.5, h.6, hfl⟩
  rcases hseen with ⟨e1, e2⟩ | ⟨e1, e2⟩
  · exact e2.trans (h.done.trans e1.symm)
  · exact e2.trans e1.symm

/-- **The slot writes of the tick**, each with what it replaces. -/
theorem Tick.slot_cases (h : Tick cfg s renv t) :
    t.sh.slot = s.sh.slot ∨
    (s.rt.pc = .front ∧ s.sh.slotBusy = false ∧ s.sh.slot.state = .committed ∧
      ∃ ns, t.sh.slot = s.runningSlot ns) ∨
    (s.rt.pc = .done ∧ s.sh.slotBusy = false ∧ s.sh.slot.state = .running ∧
      t.sh.slot = RtLoop.groupValue s.rt.pub .done 0 s.rt.groupStampNs) ∨
    (s.rt.pc = .mirror ∧ s.rt.faulted = true ∧ s.rt.groupFaultMirrored = false ∧
      s.sh.slot.state ≠ .done ∧ ∃ code, t.sh.slot = RtLoop.groupValue s.rt.pub .faulted code 0) ∨
    (s.rt.pc = .peers ∧ s.sh.slotBusy = false ∧ liveStates s.sh.slot.state = true ∧
      t.sh.slot = RtLoop.groupValue s.rt.pub .cancelled 0 0) := by
  cases h with
  | front s₁ _ hpc ha hh =>
    have hrun : ∀ ns, s₁.runningSlot ns = s.runningSlot ns := by
      intro ns
      cases ha <;> rfl
    have hbusy : s₁.sh.slotBusy = s.sh.slotBusy := by cases ha <;> rfl
    have ha' : s₁.sh.slot = s.sh.slot ∨ (s.sh.slotBusy = false ∧ s.sh.slot.state = .committed ∧
        ∃ ns, s₁.sh.slot = s.runningSlot ns) := by
      cases ha with
      | stamped _ _ hb hs => exact .inr ⟨hb, hs, _, rfl⟩
      | _ => exact .inl rfl
    have hh' : t.sh.slot = s₁.sh.slot ∨ (s₁.sh.slotBusy = false ∧ s₁.sh.slot.state = .committed ∧
        ∃ ns, t.sh.slot = s₁.runningSlot ns) := by
      cases hh with
      | retried _ _ hb hs => exact .inr ⟨hb, hs, _, rfl⟩
      | _ => exact .inl rfl
    rcases ha' with ha' | ⟨hb, hs, ns, ha'⟩
    · rcases hh' with hh' | ⟨hb, hs, ns, hh'⟩
      · exact .inl (hh'.trans ha')
      · exact .inr (.inl ⟨hpc, hbusy ▸ hb, ha' ▸ hs, ns, hh'.trans (hrun ns)⟩)
    · rcases hh' with hh' | ⟨-, hs', -⟩
      · exact .inr (.inl ⟨hpc, hb, hs, ns, hh'.trans ha'⟩)
      · rw [ha'] at hs'
        cases hs'
  | done hpc hb hs => exact .inr (.inr (.inl ⟨hpc, hb, hs, rfl⟩))
  | mirrored code hpc hf hm hb hs => exact .inr (.inr (.inr (.inl ⟨hpc, hf, hm, hs, code, rfl⟩)))
  | tripped hpc hb hs => exact .inr (.inr (.inr (.inr ⟨hpc, hb, hs, rfl⟩)))
  | _ => exact .inl rfl

/-- the tick never commits -/
theorem Tick.committed (hm : Tick cfg s renv t) (hc : t.sh.slot.state = .committed) :
    t.sh.slot = s.sh.slot := by
  rcases hm.slot_cases with he | ⟨-, -, -, ns, he⟩ | ⟨-, -, -, he⟩ | ⟨-, -, -, -, code, he⟩ |
    ⟨-, -, -, he⟩
  · exact he
  all_goals
    rw [he] at hc
    cases hc

/-- **The slot writes of the control thread**, each with what it replaces. -/
theorem Move.slot_cases (h : Move cfg ids s env t) :
    t.sh.slot = s.sh.slot ∨
    (s.loc.grp.joined = true ∧ t.sh.slot = s.sh.slot.write s.leftSlot leaveStates) ∨
    (s.pc = .recv ∧ t.sh.slot.state = .staged ∧ ∃ f g, env.frame = some f ∧ f.body = .groupJoin g ∧ s.joins cfg g = true ∧
      t.joinedIds = s.joinedIds ++ [g.groupId] ∧ t.sh.slot.groupId = g.groupId) ∨
    (s.pc = .commitWrite ∧ t.sh.slot = s.committedSlot) ∨
    (s.pc = .groupEnd ∧ cfg.groupEnabled = true ∧ s.pub.groupId ≠ 0 ∧ t.sh.slot = s.goneSlot) := by
  cases h with
  | quit g w p hj => exact .inr (.inl ⟨hj, rfl⟩)
  | join f g p hpc hf hb hg hjoin => exact .inr (.inr (.inl ⟨hpc, rfl, f, g, hf, hb, hjoin, rfl, rfl⟩))
  | commitWrite hpc => exact .inr (.inr (.inr (.inl ⟨hpc, rfl⟩)))
  | groupEnd hpc hg hid => exact .inr (.inr (.inr (.inr ⟨hpc, hg, hid, rfl⟩)))
  | _ => exact .inl rfl

theorem scopeGroup_pending {r : RtLoop} {p : Published}
    (h : (r.scopeGroup p).groupStampPending = true) :
    r.scopeGroup p = r ∧ p.groupId = r.groupTickId := by
  unfold RtLoop.scopeGroup at *
  by_cases hid : p.groupId ≠ r.groupTickId
  · rw [if_pos hid] at h
    cases h
  · rw [if_neg hid]
    exact ⟨rfl, not_not.mp hid⟩

/-- a stamp is pending only while the write it lost against is in progress, or until the tick sees
that its group is over -/
theorem Tick.stamp (hs : s.Shape) (hse : Sessions ids s) (hme : Membership cfg s)
    (ht : Tickets ids s) (h : Slots s) (hm : Tick cfg s renv t)
    (hp : t.rt.groupStampPending = true) :
    t.rt.groupTickId ∈ s.joinedIds ∧ ((s.sh.slotBusy = true ∧ s.pc ≠ .commitWrite) ∨
      s.pub.groupActive = false ∨ s.pub.groupId ≠ t.rt.groupTickId) := by
  cases hm with
  | front s₁ _ hpc ha hh =>
    -- after the answer: the old pending stamp, or a new one that was contended
    have hans : s₁.pub = s.pub ∧ s₁.rt.groupTickId = s.rt.groupTickId ∧
        (s₁.rt.groupStampPending = true → s.rt.groupStampPending = true ∨
          (s.sh.slotBusy = true ∧ s.loaded.inFlight ∧ s.loaded.Selects)) := by
      cases ha with
      | idle | plain => exact ⟨rfl, rfl, .inl⟩
      | stamped | late => exact ⟨rfl, rfl, fun h => by cases h⟩
      | contended hin hsel hb => exact ⟨rfl, rfl, fun _ => .inr ⟨hb, hin, hsel⟩⟩
    obtain ⟨hpub, htick, hpend⟩ := hans
    have hing : s.loaded.Selects → RtLoop.inGroup cfg s.pub = true :=
      Selects.inGroup hse.loaded hme.loaded
    cases hh with
    | outside hin _ =>
      rw [hpub] at hin
      rcases hpend hp with hold | ⟨-, -, hsel⟩
      · show s₁.rt.groupTickId ∈ _ ∧ (_ ∨ _ ∨ _ ≠ s₁.rt.groupTickId)
        rw [htick]
        exact h.stamp hold
      · rw [hing hsel] at hin
        cases hin
    | inactive => cases hp
    | settled _ hset => exact absurd hp (by simpa [withRt] using hset)
    | retried => cases hp
    | dropped => cases hp
    | waits hin hset hb =>
      obtain ⟨hsame, hid⟩ := scopeGroup_pending hset
      show (s₁.rt.scopeGroup s₁.pub).groupTickId ∈ _ ∧
        (_ ∨ _ ∨ _ ≠ (s₁.rt.scopeGroup s₁.pub).groupTickId)
      rw [hsame] at hset ⊢
      rw [htick]
      rcases hpend hset with hold | ⟨hbusy, hfl, hsel⟩
      · exact h.stamp hold
      obtain ⟨hpc, hj⟩ := hme.active hsel.active
      rw [htick, hpub, (hme.published hpc hj).2.1] at hid
      have hh : s.loc.grp.hold = false := (hsel.waiting hse.loaded ht.loaded hfl).2.2.2
      refine ⟨hid ▸ (hme.joined hpc hj).2.2.2.2, .inl ⟨hbusy, fun hw => ?_⟩⟩
      rw [hs.write hw] at hh
      cases hh
  | _ => exact h.stamp hp

/-- **How a slot becomes RUNNING**: the published commit is selected in this tick. -/
theorem Tick.starts (hm : Tick cfg s renv t) (h : Slots s) (hrun : t.sh.slot.state = .running) :
    t.sh.slot = s.sh.slot ∨
      (s.sh.slot.state = .committed ∧ s.loaded.inFlight ∧ s.loaded.Selects ∧
        t.sh.slot = s.runningSlot renv.now ∧ t.rt.groupStampNs = renv.now ∧ ¬ t.inFlight ∧
        t.rt.referenceDone = s.pub.referencePublished ∧ t.rt.referenceResult = .ok) := by
  cases hm with
  | front s₁ _ hpc ha hh =>
    have hkeep := hh.keeps
    cases hh with
    | retried hin hset hb hs =>
      -- a pending stamp is not retried: the write it lost against has ended the membership
      exfalso
      obtain ⟨hsame, hid⟩ := scopeGroup_pending hset
      rw [hsame] at hset
      cases ha with
      | idle | plain =>
        obtain ⟨-, hcase⟩ := h.stamp hset
        have hact : s.pub.groupActive = true := by
          simp only [RtLoop.inGroup, Bool.and_eq_true] at hin
          exact hin.1.1.1.2
        rcases hcase with ⟨hbusy, -⟩ | hno | hne
        · exact absurd hbusy (by simpa [loaded, answered] using hb)
        · rw [hact] at hno
          cases hno
        · exact hne hid
      | stamped | late => cases hset
      | contended _ _ hbusy => exact absurd hbusy (by simpa [answered] using hb)
    | _ =>
      cases ha with
      | stamped hfl hsel hb hs =>
        obtain ⟨-, hseen, hdone, hres, hns, -⟩ := hkeep
        exact .inr ⟨hs, hfl, hsel, rfl, hns, fun hin => hin.1 hseen.symm, hdone, hres⟩
      | _ => exact .inl rfl
  | done => cases hrun
  | mirrored => cases hrun
  | tripped => cases hrun
  | _ => exact .inl rfl

/-- at the head of the group section the tick's loads are what is published -/
theorem Tick.atDone (hm : Tick cfg s renv t) (hpc : t.rt.pc = .done) :
    t.rt.pub = s.pub ∧ s.pub.groupActive = true := by
  cases hm with
  | front s₁ _ _ ha hh =>
    obtain ⟨hpub, -, -, -, -, hin⟩ := hh.keeps
    have hin' := hin hpc
    have hans : s₁.rt.pub = s.pub ∧ s₁.pub = s.pub := by cases ha <;> exact ⟨rfl, rfl⟩
    rw [hans.2] at hin'
    simp only [RtLoop.inGroup, Bool.and_eq_true] at hin'
    exact ⟨hpub.trans hans.1, hin'.1.1.1.2⟩
  | unread h => rw [h] at hpc; cases hpc
  | _ => cases hpc

theorem Slots.tick (hs : s.Shape) (hse : Sessions ids s) (hme : Membership cfg s)
    (ht : Tickets ids s) (h : Slots s) (hm : Tick cfg s renv t) : Slots t := by
  have hrunning : t.sh.slot.state = .running → s.pub.groupActive = true →
      t.sh.slot.groupId = s.pub.groupId := by
    intro hrun hact
    rcases hm.starts h hrun with he | ⟨-, -, -, he, -⟩
    · rw [he] at hrun ⊢
      exact h.running hrun hact
    · rw [he]
      rfl
  have hfresh : s.loc.grp.isCommit = true → s.loc.grp.hold = true ∨ t.inFlight →
      s.pc ≠ .commitWrite → t.sh.slot.state ≠ .running ∧ t.sh.slot.state ≠ .done := by
    intro hc hfl hpc
    have hold := h.fresh hc (hfl.imp_right hm.inFlight) hpc
    refine ⟨fun hrun => ?_, fun hdone => ?_⟩
    · rcases hm.starts h hrun with he | ⟨-, hin, hsel, -, -, hno, -⟩
      · exact hold.1 (he ▸ hrun)
      · have hh : s.loc.grp.hold = false := (hsel.waiting hse.loaded ht.loaded hin).2.2.2
        exact hno (hfl.resolve_left (by simp [hh]))
    · rcases hm.slot_cases with he | ⟨-, -, -, ns, he⟩ | ⟨-, -, hrun, -⟩ | ⟨-, -, -, -, code, he⟩ |
        ⟨-, -, -, he⟩
      · exact hold.2 (he ▸ hdone)
      · rw [he] at hdone
        cases hdone
      · exact hold.1 hrun
      · rw [he] at hdone
        cases hdone
      · rw [he] at hdone
        cases hdone
  have hmid : t.rt.pc = .done → t.sh.slot.state = .running →
      t.sh.slot.groupId = t.rt.pub.groupId := by
    intro hpc hrun
    obtain ⟨hpub, hact⟩ := hm.atDone hpc
    rw [hpub]
    exact hrunning hrun hact
  have hcommitted : t.sh.slot.state = .committed → t.sh.slot = s.sh.slot := hm.committed
  have hstamp := Tick.stamp hs hse hme ht h hm
  obtain ⟨r, slot, rfl⟩ := hm.frame
  exact ⟨fun hc => (hcommitted hc) ▸ h.committed ((hcommitted hc) ▸ hc), hrunning, hmid, hfresh,
    hstamp⟩

/-! ## the whole server -/

/-- **The group invariant of one server.** -/
structure Inv (cfg : ServerConfig) (ids : SessionIds) (s : Server) : Prop where
  shape : s.Shape
  sessions : Sessions ids s
  members : Membership cfg s
  tickets : Tickets ids s
  slots : Slots s

theorem Inv.congr {s s' : Server} (h : Inv cfg ids s) (hc : s'.core = s.core) : Inv cfg ids s' := by
  obtain ⟨h1, h2, h3, h4, h5⟩ := h
  have hcore : Inv cfg ids s.core := ⟨⟨h1.1, h1.2, h1.3, h1.4⟩, ⟨h2.1, h2.2, h2.3, h2.4, h2.5⟩,
    ⟨h3.1, h3.2, h3.3, h3.4⟩, ⟨h4.1, h4.2, h4.3, h4.4, h4.5, h4.6, h4.7⟩,
    ⟨h5.1, h5.2, h5.3, h5.4, h5.5⟩⟩
  rw [← hc] at hcore
  obtain ⟨h1, h2, h3, h4, h5⟩ := hcore
  exact ⟨⟨h1.1, h1.2, h1.3, h1.4⟩, ⟨h2.1, h2.2, h2.3, h2.4, h2.5⟩, ⟨h3.1, h3.2, h3.3, h3.4⟩,
    ⟨h4.1, h4.2, h4.3, h4.4, h4.5, h4.6, h4.7⟩, ⟨h5.1, h5.2, h5.3, h5.4, h5.5⟩⟩

/-- the control thread enters the sequence lock -/
def entered (s : Server) : Server := { s with sh := { s.sh with slotBusy := true } }

/-- what one event does, as far as the core can tell -/
inductive Steps (cfg : ServerConfig) (ids : SessionIds) (s : Server) : Event → Server → Prop
  | same (e : Event) : Steps cfg ids s e s
  | move (env : CtlEnv) (t : Server) (hm : Move cfg ids s env t) (hb : t.sh.slotBusy = false) :
      Steps cfg ids s (.control env) t
  | enter : Steps cfg ids s .enterSlot s.entered
  | tick (env : RtEnv) (t : Server) (ht : Tick cfg s env t) : Steps cfg ids s (.servo env) t

theorem step_cases (cfg : ServerConfig) (ids : SessionIds) (s : Server) (hs : s.Shape) (e : Event) :
    ∃ t, (s.step cfg ids e).core = t.core ∧ Steps cfg ids s e t := by
  cases e with
  | control env =>
    obtain ⟨t, hc, hm⟩ := controlStep_move cfg ids s env hs
    unfold step
    dsimp only
    split_ifs with hb
    · exact ⟨s, rfl, .same _⟩
    · refine ⟨t, hc, .move env t hm ?_⟩
      show t.core.sh.slotBusy = false
      rw [← hc]
      exact Bool.eq_false_of_not_eq_true hb
  | enterSlot => exact ⟨_, rfl, .enter⟩
  | servo env =>
    obtain ⟨t, hc, ht⟩ := servo_ticks cfg s env rfl
    exact ⟨t, hc, .tick env t ht⟩
  | datagram x => exact ⟨s, rfl, .same _⟩

/-- the part of the invariant that no condition on the run is needed for -/
structure Base (cfg : ServerConfig) (ids : SessionIds) (s : Server) : Prop where
  shape : s.Shape
  sessions : Sessions ids s
  members : Membership cfg s

theorem Base.congr {s s' : Server} (h : Base cfg ids s) (hc : s'.core = s.core) :
    Base cfg ids s' := by
  obtain ⟨h1, h2, h3⟩ := h
  have hcore : Base cfg ids s.core := ⟨⟨h1.1, h1.2, h1.3, h1.4⟩, ⟨h2.1, h2.2, h2.3, h2.4, h2.5⟩,
    ⟨h3.1, h3.2, h3.3, h3.4⟩⟩
  rw [← hc] at hcore
  obtain ⟨h1, h2, h3⟩ := hcore
  exact ⟨⟨h1.1, h1.2, h1.3, h1.4⟩, ⟨h2.1, h2.2, h2.3, h2.4, h2.5⟩, ⟨h3.1, h3.2, h3.3, h3.4⟩⟩

theorem Base.steps (h : Base cfg ids s) {e : Event} (hm : Steps cfg ids s e t) :
    Base cfg ids t := by
  obtain ⟨h1, h2, h3⟩ := h
  cases hm with
  | same => exact ⟨h1, h2, h3⟩
  | move env _ hm _ => exact ⟨h1.move hm, h2.move hm, h3.move h1 hm⟩
  | enter => exact ⟨⟨h1.1, h1.2, h1.3, h1.4⟩, ⟨h2.1, h2.2, h2.3, h2.4, h2.5⟩,
      ⟨h3.1, h3.2, h3.3, h3.4⟩⟩
  | tick env _ ht => exact ⟨h1.tick ht, h2.tick ht, h3.tick ht⟩

theorem Base.step (h : Base cfg ids s) (e : Event) : Base cfg ids (s.step cfg ids e) := by
  obtain ⟨t, hc, hm⟩ := step_cases cfg ids s h.shape e
  exact (h.steps hm).congr hc

theorem base_init (cfg : ServerConfig) (ids : SessionIds) : Base cfg ids {} where
  shape := ⟨by simp, by simp, by simp, by simp⟩
  sessions := ⟨by simp, by simp, by simp, by simp, by simp [CtlPc.inRound]⟩
  members := ⟨by simp, by simp, by simp, by simp⟩

/-- **The rule for an invariant of the core**: it is preserved by the moves of both threads and by
the entry into the sequence lock. -/
theorem step_rule {P : Server → Prop} {e : Event} (hs : s.Shape)
    (hcore : ∀ s s', s'.core = s.core → P s → P s')
    (hmove : ∀ env t, e = .control env → Move cfg ids s env t → P t)
    (henter : e = .enterSlot → P s.entered)
    (htick : ∀ env t, e = .servo env → Tick cfg s env t → P t) (h : P s) :
    P (s.step cfg ids e) := by
  obtain ⟨t, hc, hm⟩ := step_cases cfg ids s hs e
  refine hcore t _ hc ?_
  cases hm with
  | same => exact h
  | move env _ hm _ => exact hmove env t rfl hm
  | enter => exact henter rfl
  | tick env _ ht => exact htick env t rfl ht

theorem Inv.steps (h : Inv cfg ids s) {e : Event} (hf : FreshIds cfg s e)
    (hm : Steps cfg ids s e t) : Inv cfg ids t := by
  obtain ⟨h1, h2, h3, h4, h5⟩ := h
  cases hm with
  | same => exact ⟨h1, h2, h3, h4, h5⟩
  | move env _ hm hb =>
    exact ⟨h1.move hm, h2.move hm, h3.move h1 hm, h4.move h1 h2 h5 hm, h5.move h1 h3 hm hb hf⟩
  | enter =>
    refine ⟨⟨h1.1, h1.2, h1.3, h1.4⟩, ⟨h2.1, h2.2, h2.3, h2.4, h2.5⟩, ⟨h3.1, h3.2, h3.3, h3.4⟩,
      ⟨h4.1, h4.2, h4.3, h4.4, h4.5, h4.6, h4.7⟩, ⟨h5.1, h5.2, h5.3, h5.4, fun hp => ?_⟩⟩
    exact (h5.stamp hp).imp_right (Or.imp_left fun hb => ⟨rfl, hb.2⟩)
  | tick env _ ht =>
    exact ⟨h1.tick ht, h2.tick ht, h3.tick ht, h4.tick ht, h5.tick h1 h2 h3 h4 ht⟩

theorem Inv.step (h : Inv cfg ids s) {e : Event} (hf : FreshIds cfg s e) :
    Inv cfg ids (s.step cfg ids e) := by
  obtain ⟨t, hc, hm⟩ := step_cases cfg ids s h.shape e
  exact (h.steps hf hm).congr hc

/-- the server before the first client -/
theorem inv_init (cfg : ServerConfig) (ids : SessionIds) : Inv cfg ids {} where
  shape := ⟨by simp, by simp, by simp, by simp⟩
  sessions := ⟨by simp, by simp, by simp, by simp, by simp [CtlPc.inRound]⟩
  members := ⟨by simp, by simp, by simp, by simp⟩
  tickets := ⟨rfl, rfl, by simp, by simp, by simp, by simp, fun h => absurd rfl h.1⟩
  slots := ⟨by simp, by simp, by simp, by simp, by simp⟩

end Server

/-! ## a group of two -/

namespace Pair
open Server

/-- member `i` of a group of two, one joint -/
def pairConfig (i : ℕ) : ServerConfig where
  n := 1
  holdNs := 100000000
  faultNs := 1000000000
  supportsReference := true
  groupEnabled := true
  groupMember := i
  groupMembers := 2
  groupMaxAgeNs := 1000000000
  groupMinLeadNs := 0
  jointOrderHash := 3
  instanceId := "arm"
  modelId := "task"
  capabilities := 0
  setupFailed := none
  sha256 _ := 7

/-- at rest from 0 to 1 s: two Hermite knots (time, position, velocity) -/
def restBytes : List (BitVec 8) :=
  List.replicate 30 0 ++ [0xF0#8, 0x3F#8] ++ List.replicate 16 0

/-- the other member, committed for group 5 -/
def committedPeer : GroupSnapshot :=
  { ok := true, slot := { state := .committed, groupId := 5 }, heartbeatNs := 1000 }

/-- a round of the control thread that receives one frame -/
def deliver (body : Body) (now : ℕ) : List Event :=
  [.control { now := now }, .control { now := now }, .control { now := now },
    .control { now := now, frame := some { body := body }, peers := fun _ => committedPeer }]

def tick (now : ℕ) : List Event := [.servo { now := now }, .servo { now := now }]

/-- a tick of a group member -/
def groupTick (now : ℕ) : List Event :=
  List.replicate 5 (.servo { now := now, peers := fun _ => committedPeer })

def upload (uploadId revision now : ℕ) : List Event :=
  deliver (.referenceBegin
    { sessionId := 1, uploadId := uploadId, referenceId := 1, jointOrderHash := 3, modelDigest := 9
      armEpoch := 1, expectedRevision := revision - 1, revision := revision, byteCount := 48
      knots := 2, n := 1, flags := 3 }) now ++
  deliver (.referenceChunk
    { uploadId := uploadId, offset := 0, length := 48, data := restBytes }) now ++
  deliver (.referenceSeal { uploadId := uploadId, sha256 := 7 }) now

/-- connect, claim, arm, upload a reference, and JOIN group 5 -/
def joined (i : ℕ) : List Event :=
  [.control {}] ++
  deliver (.claim
    { instanceId := "arm", modelId := "task", sessionId := 1, jointOrderHash := 3, n := 1 }) 1000 ++
  deliver (.referenceMode { sessionId := 1, jointOrderHash := 3, modelDigest := 9, enable := 1 })
    1000 ++
  deliver .arm 1000 ++ tick 1000 ++ upload 1 1 1000 ++
  deliver (.groupJoin
    { sessionId := 1, groupId := 5, armEpoch := 1, memberIndex := i, memberCount := 2 }) 1000

/-- a GROUP_COMMIT and its slot write -/
def commitGroup (i now : ℕ) : List Event :=
  deliver (.groupCommit
    { sessionId := 1, groupId := 5, uploadId := 1, referenceId := 1, budgetNs := 1000000
      armEpoch := 1, memberIndex := i }) now ++ [.control {}]

/-- the hold polls both members, finds them committed, and releases -/
def release (now : ℕ) : List Event :=
  List.replicate 4 (.control { now := now, snap := committedPeer })

end Pair

end ArmControl.Rt
