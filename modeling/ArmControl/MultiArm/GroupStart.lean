import ArmControl.MultiArm.SdkGroupCoordinator

/-!
# A group start is all or cancelled

* `Follows`            what any call but a submission leaves of a member's executions;
* `Ready`              a submission that was answered is known by its execution;
* `startMembers_ready`, `startMembers_record`, `cancel_ends`;
* `Overlooked`         a member whose answer was lost after its supervisor took the submission, and that nothing ends;
* `group_all_or_cancelled`   **every start is all or cancelled, but for the members that are overlooked.**
-/

namespace ArmControl.MultiArm.GroupStart

open Execution Executions Effect
open Clients (CallError)

variable {α : Type}

/-! ## what a call leaves of the executions -/

structure Follows (l l' : Ledger) : Prop where
  dwindles : Dwindles l l'
  sound : l.Sound → l'.Sound

theorem Follows.refl (l : Ledger) : Follows l l := ⟨.refl l, id⟩

theorem Follows.trans {l l' l'' : Ledger} (h : Follows l l') (h' : Follows l' l'') : Follows l l'' :=
  ⟨h.dwindles.trans h'.dwindles, fun hs => h'.sound (h.sound hs)⟩

theorem follows_acts (l : Ledger) (ds : List Deed) : Follows l (l.acts ds) :=
  ⟨(change_acts l ds).dwindles fun _ => (Option.some_ne_none _).symm, fun h => sound_acts h ds⟩

theorem follows_onward {op : Option Op} {w w' : World} (h : Onward op w w') (hop : ∀ r, op ≠ some (.submit r)) :
    Follows w.ledger w'.ledger := ⟨h.change.dwindles hop, h.sound⟩

theorem follows_cancelMembers (eids : List ℕ) (l : Ledger) : Follows l (cancelMembers eids l) := by
  unfold cancelMembers
  induction eids generalizing l with
  | nil => exact .refl l
  | cons i eids ih =>
    refine Follows.trans ⟨?_, fun h => ?_⟩ (ih _)
    · refine (@change_modify (some (.cancel i)) _ _ _ fun e _ => ?_).dwindles fun r hr => Op.noConfusion (Option.some.inj hr)
      split_ifs
      · exact ⟨⟨rfl, fun _ => rfl, id, fun _ => rfl, id, .inl, fun h _ => h⟩, .inl, fun _ => .inr rfl⟩
      · exact ⟨.refl e, .inl, .inl⟩
    · refine sound_modify h (fun e he => ?_) (fun e he => ?_) (fun e => ?_) fun e he => ?_
      · split_ifs
        · exact ⟨he.forgotten, he.begun⟩
        · exact he
      · split_ifs at he <;> exact he
      · split_ifs <;> rfl
      · split_ifs at he <;> exact he

/-- a group call whose handling follows -/
theorem groupCall_follows {a : GroupArm} {serve : ℕ → Supervised → Except String α × Supervised}
    (hserve : ∀ n m, Follows m.world.ledger (serve n m).2.world.ledger) (m : Supervised) :
    Holds (fun m' => Follows m.world.ledger m'.world.ledger) (groupCall a serve) m := by
  have hfound : Follows m.world.ledger (m.found a).world.ledger := follows_acts _ _
  have hserved : Follows m.world.ledger (m.settle a (serve m.world.calls (m.found a)).2).world.ledger :=
    (hfound.trans (hserve _ _)).trans (follows_acts _ _)
  unfold groupCall Holds Ends
  beta_reduce
  cases hf : (a.env.turn m.world.calls).fate with
  | answered =>
    dsimp only
    cases (serve m.world.calls (m.found a)).1 with
    | ok x => exact hserved
    | error text => exact hserved
  | refused text => exact hfound
  | lost reached loss =>
    cases reached with
    | true => exact hserved
    | false => exact hfound

theorem groupJoin_follows {a : GroupArm} {groupId index count : ℕ} (m : Supervised) :
    Holds (fun m' => Follows m.world.ledger m'.world.ledger) (groupJoin a groupId index count) m := by
  refine groupCall_follows (fun n m => ?_) m
  unfold joinServe
  split_ifs
  · exact .refl _
  · exact .refl _
  · cases a.exchange n <;> exact .refl _

theorem groupRelease_follows {a : GroupArm} {i groupId : ℕ} {budgetNs : ℤ} (m : Supervised) :
    Holds (fun m' => Follows m.world.ledger m'.world.ledger) (groupRelease a i groupId budgetNs) m := by
  refine groupCall_follows (fun n m => ?_) m
  have henlisted : Follows m.world.ledger (releaseEnlisted i m).2.world.ledger := by
    unfold releaseEnlisted
    cases hs : m.world.ledger.serve true (.release i) with
    | error text => exact .refl _
    | ok r =>
      exact ⟨(serve_ok hs).1.dwindles fun r hr => Op.noConfusion (Option.some.inj hr), fun h => sound_serve h hs⟩
  unfold releaseServe
  cases m.joined with
  | none => exact .refl _
  | some j =>
    dsimp only
    cases m.world.ledger.get i with
    | error text => split_ifs <;> exact .refl _
    | ok e =>
      dsimp only
      split_ifs <;> first | exact henlisted | exact .refl _

theorem groupReport_follows {a : GroupArm} {i : ℕ} (m : Supervised) :
    Holds (fun m' => Follows m.world.ledger m'.world.ledger) (groupReport a i) m :=
  groupCall_follows (fun _ _ => .refl _) m

theorem groupCancel_follows {a : GroupArm} {groupId : ℕ} (m : Supervised) :
    Holds (fun m' => Follows m.world.ledger m'.world.ledger) (groupCancel a groupId) m := by
  refine groupCall_follows (fun n m => ?_) m
  unfold cancelServe
  cases m.joined with
  | none => exact .refl _
  | some j =>
    dsimp only
    split_ifs
    · exact .refl _
    · cases a.exchange n with
      | done => exact follows_cancelMembers _ _
      | refused notInGroup text => cases notInGroup <;> exact follows_cancelMembers _ _
      | unknown text => exact follows_cancelMembers _ _

theorem onWorld_follows {o : Op} {env : Env} (ho : ∀ r, o ≠ .submit r) (m : Supervised) :
    Holds (fun m' => Follows m.world.ledger m'.world.ledger) (onWorld (ask env o)) m := by
  unfold onWorld Holds
  rw [ends_zoom]
  have hop : ∀ r, some o ≠ some (.submit r) := fun r hr => ho r (Option.some.inj hr)
  exact ask_ends.mono (fun _ _ h => follows_onward h.1 hop) fun _ _ h => follows_onward h.1 hop

/-! ## what is known of the submissions -/

/-- the execution is the only one of its request id that may be live -/
def Alone (i : ℕ) (p : String) (l : Ledger) : Prop := ∀ (j : ℕ) (x : Executions.Entry), l[j]? = some x → x.live = true → x.planId = p → j = i

theorem Alone.dwindles {i : ℕ} {p : String} {l l' : Ledger} (h : Alone i p l) (hd : Dwindles l l') : Alone i p l' := by
  intro j x' hx' hlive hp
  obtain ⟨x, hx, hl, hpx⟩ := hd j x' hx' hlive
  exact h j x hx hl (hpx.symm.trans hp)

/-- what is known of the executions -/
structure Known (requests : Dict String TrajectoryRequest) (s : GroupState) : Prop where
  sound : ∀ m, (s.members m).world.ledger.Sound
  alone : ∀ m i r, s.executions.get m = some i → requests.get m = some r → Alone i r.requestId (s.members m).world.ledger
  answered : ∀ m, .submitted m true true ∈ s.log → (s.executions.get m).isSome

/-- what a start knows, with a part of the log that it keeps -/
structure Ready (groupId : ℕ) (requests : Dict String TrajectoryRequest) (base : List Note) (s : GroupState) : Prop
    extends Known requests s where
  replies : ∀ m r, s.replies.get m = some (.report r) → .reported m r ∈ s.log ∧ foreign groupId r = false
  log : base ⊆ s.log
  errors : s.cancelErrors = {}

variable {c : SdkGroupCoordinator} {groupId : ℕ} {requests : Dict String TrajectoryRequest} {base : List Note} {s : GroupState}
  {name : String}

/-- a member's executions have gone on -/
theorem Known.follow {w : Supervised} (h : Known requests s) (hw : Follows (s.members name).world.ledger w.world.ledger) :
    Known requests { s with members := Function.update s.members name w } where
  sound m := by
    show (Function.update s.members name w m).world.ledger.Sound
    by_cases hm : m = name
    · subst hm
      rw [Function.update_self]
      exact hw.sound (h.sound m)
    · rw [Function.update_of_ne hm]
      exact h.sound m
  alone m i r hi hr := by
    show Alone i _ (Function.update s.members name w m).world.ledger
    by_cases hm : m = name
    · subst hm
      rw [Function.update_self]
      exact (h.alone m i r hi hr).dwindles hw.dwindles
    · rw [Function.update_of_ne hm]
      exact h.alone m i r hi hr
  answered := h.answered

theorem Ready.follow {w : Supervised} (h : Ready groupId requests base s)
    (hw : Follows (s.members name).world.ledger w.world.ledger) :
    Ready groupId requests base { s with members := Function.update s.members name w } :=
  ⟨h.toKnown.follow hw, h.replies, h.log, h.errors⟩

/-- an entry of the log that is no submission -/
theorem Known.note {n : Note} (h : Known requests s) (hn : ∀ m t a, n ≠ .submitted m t a) : Known requests (s.note n) where
  sound := h.sound
  alone := h.alone
  answered m hlog := by
    rcases List.mem_append.mp hlog with hlog | hlog
    · exact h.answered m hlog
    · exact absurd (List.mem_singleton.mp hlog).symm (hn m true true)

theorem Ready.note {n : Note} (h : Ready groupId requests base s) (hn : ∀ m t a, n ≠ .submitted m t a) :
    Ready groupId requests base (s.note n) :=
  ⟨h.toKnown.note hn, fun m r hr => ⟨List.mem_append_left _ (h.replies m r hr).1, (h.replies m r hr).2⟩,
    fun _ hx => List.mem_append_left _ (h.log hx), h.errors⟩

theorem ends_attempt {m : EStateM CallError Supervised α} {Q : Except CallError α → GroupState → Prop}
    {E : Failure → GroupState → Prop} : Ends Q E (attempt name m) s ↔
      Ends (fun x w => Q (.ok x) { s with members := Function.update s.members name w })
        (fun e w => Q (.error e) { s with members := Function.update s.members name w }) m (s.members name) := by
  unfold Ends attempt
  cases m (s.members name) <;> exact Iff.rfl

theorem keeps_attempt {m : EStateM CallError Supervised α}
    (hm : ∀ w : Supervised, Holds (fun w' => Follows w.world.ledger w'.world.ledger) m w) :
    Keeps (Ready groupId requests base) (attempt name m) := by
  intro s h
  unfold Holds
  rw [ends_attempt]
  exact (hm _).mono (fun _ _ hw => h.follow hw) fun _ _ hw => h.follow hw

theorem keeps_calling {m : EStateM CallError Supervised α}
    (hm : ∀ w : Supervised, Holds (fun w' => Follows w.world.ledger w'.world.ledger) m w) :
    Keeps (Ready groupId requests base) (calling name m) := by
  refine (keeps_attempt hm).bind fun x => ?_
  cases x with
  | ok x => exact keeps_pure x
  | error e => exact keeps_throw _

/-! ## the steps of a start -/

theorem joinEach_keeps {members : List (String × ℕ)} : Keeps (Ready groupId requests base) (joinEach c groupId members) := by
  induction members with
  | nil => exact keeps_pure _
  | cons x rest ih =>
    refine (keeps_attempt groupJoin_follows).bind fun answered => ?_
    cases answered with
    | error e => exact keeps_throw _
    | ok domain =>
      refine (keeps_modify fun s h => h.note fun _ _ _ hn => Note.noConfusion hn).bind fun _ => ih.bind fun _ => keeps_pure _

theorem domainOf_keeps {domains : List (String × Option String)} : Keeps (Ready groupId requests base) (domainOf domains) := by
  unfold domainOf
  refine Keeps.ite (keeps_throw _) ?_
  cases domains with
  | nil => exact keeps_throw _
  | cons x rest => exact Keeps.ite (keeps_throw _) (keeps_pure _)

/-- a submission that the supervisor does not take changes nothing, and is not answered -/
theorem untaken_ends {env : Env} {r : TrajectoryRequest} {w : World} (h : takes env r w = false) :
    Ends (fun _ _ => False) (fun _ w' => Follows w.ledger w'.ledger) (ask env (.submit r)) w := by
  have hanswer : (w.served env (.submit r)).toOption.isSome = false →
      Ends (fun _ _ => False) (fun _ w' => Follows w.ledger w'.ledger) (answer env (.submit r)) w := by
    intro hno
    unfold answer Ends
    beta_reduce
    cases hs : w.served env (.submit r) with
    | ok x =>
      rw [hs] at hno
      cases hno
    | error text => exact follows_acts _ _
  unfold takes at h
  unfold ask
  rw [ends_bind, ends_get]
  cases hf : (env.turn w.calls).fate with
  | answered =>
    rw [hf] at h
    exact hanswer h
  | refused text => exact follows_acts _ _
  | lost reached loss =>
    rw [hf] at h
    unfold lose Ends
    beta_reduce
    cases reached with
    | false => exact follows_acts _ _
    | true =>
      cases hs : w.served env (.submit r) with
      | ok x =>
        rw [hs] at h
        cases h
      | error text =>
        simp only [hs]
        exact follows_acts _ _

/-- a submission is handled: what is known of the others stays, and `hname` is what is known of its own member -/
theorem Ready.submit {w : World} (executions : Dict String ℕ) (taken answered : Bool) (h : Ready groupId requests base s)
    (hsound : w.ledger.Sound) (hexec : ∀ m, m ≠ name → executions.get m = s.executions.get m)
    (hname : ∀ i r, executions.get name = some i → requests.get name = some r → Alone i r.requestId w.ledger)
    (hanswered : answered = true → (executions.get name).isSome) (hbefore : s.executions.get name = none) :
    Ready groupId requests base
      { s with
        members := Function.update s.members name { s.members name with world := w }
        executions := executions
        log := s.log ++ [.submitted name taken answered] } where
  sound m := by
    show (Function.update s.members name _ m).world.ledger.Sound
    by_cases hm : m = name
    · subst hm
      rw [Function.update_self]
      exact hsound
    · rw [Function.update_of_ne hm]
      exact h.sound m
  alone m i r hi hr := by
    show Alone i _ (Function.update s.members name _ m).world.ledger
    by_cases hm : m = name
    · subst hm
      rw [Function.update_self]
      exact hname i r hi hr
    · rw [Function.update_of_ne hm]
      exact h.alone m i r ((hexec m hm).symm.trans hi) hr
  answered m hlog := by
    show (executions.get m).isSome
    rcases List.mem_append.mp hlog with hlog | hlog
    · have hold := h.answered m hlog
      rw [hexec m fun hm => ?_]
      · exact hold
      · rw [hm, hbefore] at hold
        cases hold
    · obtain ⟨rfl, -, rfl⟩ := Note.submitted.inj (List.mem_singleton.mp hlog)
      exact hanswered rfl
  replies m r hr := ⟨List.mem_append_left _ (h.replies m r hr).1, (h.replies m r hr).2⟩
  log := fun _ hx => List.mem_append_left _ (h.log hx)
  errors := h.errors

/-- a member is staged once, and no other is -/
theorem stageOne_ready (h : Ready groupId requests base s) (hbefore : s.executions.get name = none) :
    Holds (fun t => Ready groupId requests base t ∧ ∀ m, m ≠ name → t.executions.get m = s.executions.get m)
      (stageOne c groupId requests name) s := by
  unfold stageOne
  cases hr : requests.get name with
  | none => exact ⟨h, fun _ _ => rfl⟩
  | some r =>
    have hnone : ∀ (l : Ledger) i r', s.executions.get name = some i → requests.get name = some r' → Alone i r'.requestId l := by
      intro l i r' hi
      rw [hbefore] at hi
      cases hi
    show Ends _ _ (get >>= _) s
    rw [ends_bind, ends_get, ends_bind, ends_attempt]
    unfold onWorld
    rw [ends_zoom]
    cases ht : takes (c.arms name).env r (s.members name).world with
    | false =>
      refine (untaken_ends ht).mono (fun _ _ hf => hf.elim) fun e w hw => ?_
      rw [ends_bind, ends_modify, ends_throw]
      exact ⟨h.submit s.executions false false (hw.sound (h.sound name)) (fun _ _ => rfl) (hnone _) (fun ha => Bool.noConfusion ha) hbefore, fun _ _ => rfl⟩
    | true =>
      refine ask_ends.mono (fun status w hw => ?_) fun e w hw => ?_
      · have hsets : ∀ m, m ≠ name → (s.executions.set name status.execution).get m = s.executions.get m :=
          fun m hm => Dict.get_set_ne hm
        have hready := h.submit (s.executions.set name status.execution) true true (hw.1.sound (h.sound name)) hsets (fun i r' hi hr' => by
            obtain rfl := Option.some.inj (hr.symm.trans hr')
            obtain rfl := Option.some.inj (Dict.get_set_self.symm.trans hi)
            obtain ⟨x, hx, hreq, -⟩ := hw.2.target.entry
            intro j y hy hlive hp
            refine hw.2.sole (h.sound name) j x y hx hy hlive (hp.trans ?_)
            rw [hreq r rfl]) (fun _ => by rw [Dict.get_set_self]; rfl) hbefore
        rw [ends_bind, ends_modify]
        show Ends _ _ (modify _ >>= _) _
        rw [ends_bind, ends_modify]
        exact ends_ite (fun _ => ⟨hready, hsets⟩) fun _ => ⟨hready, hsets⟩
      · rw [ends_bind, ends_modify, ends_throw]
        exact ⟨h.submit s.executions true false (hw.1.sound (h.sound name)) (fun _ _ => rfl) (hnone _) (fun ha => Bool.noConfusion ha) hbefore, fun _ _ => rfl⟩

theorem stage_ready {names : List String} (hnodup : names.Nodup) (h : Ready groupId requests base s)
    (hbefore : ∀ m ∈ names, s.executions.get m = none) :
    Holds (Ready groupId requests base) (Effect.each names (stageOne c groupId requests)) s := by
  induction names generalizing s with
  | nil => exact h
  | cons name rest ih =>
    obtain ⟨hname, hrest⟩ := List.nodup_cons.mp hnodup
    show Ends _ _ (stageOne c groupId requests name >>= fun _ => Effect.each rest (stageOne c groupId requests)) s
    rw [ends_bind]
    refine (stageOne_ready h (hbefore name List.mem_cons_self)).mono (fun _ t ht => ih hrest ht.1 fun m hm => ?_) fun _ _ ht => ht.1
    rw [ht.2 m fun he => hname (he ▸ hm)]
    exact hbefore m (List.mem_cons_of_mem _ hm)

theorem releaseEach_keeps {names : List String} : Keeps (Ready groupId requests base) (releaseEach c groupId names) := by
  induction names with
  | nil => exact keeps_pure _
  | cons name rest ih =>
    refine keeps_get fun s h => ?_
    refine ((keeps_attempt groupRelease_follows).bind fun answered => ?_) s h
    exact keeps_get fun t ht => (ih.bind fun _ => keeps_pure _) t ht

theorem checkReleased_keeps {released : List Released} : Keeps (Ready groupId requests base) (checkReleased groupId released) := by
  unfold checkReleased
  split
  · exact keeps_throw _
  · exact Keeps.ite (keeps_throw _) (keeps_pure _)

theorem lookOne_keeps : Keeps (Ready groupId requests base) (lookOne c groupId name) := by
  refine keeps_get fun s h => ?_
  refine (Keeps.ite (I := Ready groupId requests base) (keeps_pure _) ?_) s h
  refine (keeps_calling groupReport_follows).bind fun reply => ?_
  cases reply with
  | some r =>
    show Keeps _ (if foreign groupId r = true then _ else _)
    by_cases hforeign : foreign groupId r = true
    · rw [if_pos hforeign]
      exact keeps_pure _
    · rw [if_neg hforeign]
      refine keeps_modify fun t ht => ⟨⟨ht.sound, ht.alone, fun m hlog => ?_⟩, fun m r' hr' => ?_,
        fun _ hx => List.mem_append_left _ (ht.log hx), ht.errors⟩
      · rcases List.mem_append.mp hlog with hlog | hlog
        · exact ht.answered m hlog
        · exact Note.noConfusion (List.mem_singleton.mp hlog)
      · have hset : (t.replies.set name (.report r)).get m = some (.report r') := hr'
        rw [Dict.get_set] at hset
        split_ifs at hset with hm
        · obtain rfl := Outcome.report.inj (Option.some.inj hset)
          exact ⟨hm ▸ List.mem_append_right _ (List.mem_singleton_self _), Bool.eq_false_of_not_eq_true hforeign⟩
        · exact ⟨List.mem_append_left _ (ht.replies m r' hset).1, (ht.replies m r' hset).2⟩
  | none =>
    refine (keeps_calling (onWorld_follows fun r hr => Op.noConfusion hr)).bind fun status => ?_
    refine Keeps.ite (keeps_modify fun t ht => ⟨⟨ht.sound, ht.alone, ht.answered⟩, fun m r' hr' => ?_, ht.log, ht.errors⟩) (keeps_pure _)
    have hset : (t.replies.set name (.ended (status.phase.value ++ ": " ++ status.reason))).get m = some (.report r') := hr'
    rw [Dict.get_set] at hset
    split_ifs at hset with hm
    · cases hset
    · exact ht.replies m r' hset

theorem look_keeps {rounds : ℕ} : Keeps (Ready groupId requests base) (look c groupId rounds) := by
  induction rounds with
  | zero => exact keeps_pure _
  | succ n ih =>
    refine keeps_get fun s h => ?_
    exact (Keeps.ite (I := Ready groupId requests base) ((Keeps.each fun _ => lookOne_keeps).bind fun _ => ih) (keeps_pure _)) s h

theorem recordOf_keeps {domain : String} {released : List Released} :
    Keeps (Ready groupId requests base) (recordOf groupId domain released) := by
  refine keeps_get fun s h => ?_
  refine (Keeps.ite (I := Ready groupId requests base) (keeps_throw _) ?_) s h
  split
  · exact keeps_throw _
  · exact keeps_pure _

/-! ## a start that returns -/

theorem Ready.rebase (h : Ready groupId requests base s) : Ready groupId requests s.log s :=
  ⟨h.toKnown, h.replies, fun _ hx => hx, h.errors⟩

theorem joinEach_ends {members : List (String × ℕ)} :
    Ends (fun domains t => domains.map Prod.fst = members.map Prod.fst ∧ s.log ⊆ t.log ∧ t.executions = s.executions ∧
        ∀ x ∈ domains, .joined x.1 x.2 ∈ t.log)
      (fun _ _ => True) (joinEach c groupId members) s := by
  induction members generalizing s with
  | nil => exact ⟨rfl, fun _ hx => hx, rfl, fun _ hx => absurd hx List.not_mem_nil⟩
  | cons x rest ih =>
    unfold joinEach
    rw [ends_bind, ends_attempt]
    refine Ends.mono (Q := fun _ _ => True) (E := fun _ _ => True) (ends_of (fun _ _ _ => trivial) fun _ _ _ => trivial)
      (fun domain w _ => ?_) fun _ _ _ => trivial
    show Ends _ _ (modify _ >>= _) _
    rw [ends_bind, ends_modify, ends_bind]
    refine ih.mono (fun domains t ht => ?_) fun _ _ h => h
    obtain ⟨hnames, hlog, hexec, hjoined⟩ := ht
    refine ⟨by rw [List.map_cons, List.map_cons, hnames], fun _ hx => hlog (List.mem_append_left _ hx), hexec, fun y hy => ?_⟩
    rcases List.mem_cons.mp hy with rfl | hy
    · exact hlog (List.mem_append_right _ (List.mem_singleton_self _))
    · exact hjoined y hy

/-- the members are in one clock domain, or in none that is attested -/
theorem domainOf_ends {domains : List (String × Option String)} :
    Ends (fun d t => t = s ∧ ∃ domain : Option String, (∀ x ∈ domains, x.2 = domain) ∧ d = domain.getD "unattested")
      (fun _ _ => True) (domainOf domains) s := by
  unfold domainOf
  refine ends_ite (fun _ => trivial) fun _ => ?_
  cases domains with
  | nil => exact trivial
  | cons x rest =>
    refine ends_ite (fun _ => trivial) fun hsame => ⟨rfl, x.2, fun y hy => ?_, rfl⟩
    rcases List.mem_cons.mp hy with rfl | hy
    · rfl
    · by_contra hne
      exact hsame (List.any_eq_true.mpr ⟨y, hy, decide_eq_true hne⟩)

theorem releaseEach_ends {names : List String} :
    Ends (fun released _ => released.map Released.name = names) (fun _ _ => True) (releaseEach c groupId names) s := by
  induction names generalizing s with
  | nil => exact rfl
  | cons name rest ih =>
    unfold releaseEach
    rw [ends_bind, ends_get, ends_bind, ends_attempt]
    have hrest : ∀ (answered : Except CallError PUnit) (t : GroupState), Ends (fun released _ => released.map Released.name = name :: rest)
        (fun _ _ => True) (do
          let u ← get
          let released ← releaseEach c groupId rest
          pure (⟨name, match answered with | .ok _ => none | .error e => some e,
            (c.arms name).clock (s.members name).world.calls, (c.arms name).clock (u.members name).world.calls⟩ :: released)) t := by
      intro answered t
      rw [ends_bind, ends_get, ends_bind]
      refine ih.mono (fun released u hu => ?_) fun _ _ h => h
      rw [ends_pure, List.map_cons, hu]
    exact ends_of (fun x w _ => hrest (.ok x) _) fun e w _ => hrest (.error e) _

/-- what a record stands for -/
structure Started.Whole (c : SdkGroupCoordinator) (groupId : ℕ) (r : GroupStartRecord) (s : GroupState) : Prop where
  domain : ∃ d : Option String, r.clockDomain = d.getD "unattested" ∧ ∀ m ∈ c.names, .joined m d ∈ s.log
  reports : ∀ m ∈ c.names, ∃ selectedNs deadlineNs referenceId, .reported m (.selected groupId selectedNs deadlineNs referenceId) ∈ s.log ∧
    0 < selectedNs ∧ 0 < deadlineNs ∧ ∃ x ∈ r.members, x.member = m ∧ x.rtSelectedNs = selectedNs ∧ x.rtDeadlineNs = deadlineNs

theorem recordOf_ends {domain : String} {released : List Released} (h : Ready groupId requests base s) :
    Ends (fun r t => t = s ∧ r.clockDomain = domain ∧ ∀ x ∈ released, ∃ selectedNs deadlineNs referenceId,
        .reported x.name (.selected groupId selectedNs deadlineNs referenceId) ∈ s.log ∧ 0 < selectedNs ∧ 0 < deadlineNs ∧
        ∃ m ∈ r.members, m.member = x.name ∧ m.rtSelectedNs = selectedNs ∧ m.rtDeadlineNs = deadlineNs)
      (fun _ _ => True) (recordOf groupId domain released) s := by
  unfold recordOf
  rw [ends_bind, ends_get]
  refine ends_ite (fun _ => trivial) fun hgood => ?_
  rw [not_not] at hgood
  split
  · exact trivial
  · rename_i hstamped
    refine ⟨rfl, rfl, fun x hx => ?_⟩
    -- a member without an error has a start, which has its stamps
    obtain ⟨m, hm⟩ : ∃ m, memberStart s x = .ok m := by
      cases hx' : memberStart s x with
      | ok m => exact ⟨m, rfl⟩
      | error e =>
        have hmem : e ∈ errorsOf (released.map (memberStart s)) :=
          List.mem_filterMap.mpr ⟨_, List.mem_map.mpr ⟨x, hx, hx'⟩, rfl⟩
        rw [hgood] at hmem
        cases hmem
    have hstart : m ∈ okOf (released.map (memberStart s)) := List.mem_filterMap.mpr ⟨_, List.mem_map.mpr ⟨x, hx, hm⟩, rfl⟩
    have hpositive : 0 < m.rtSelectedNs ∧ 0 < m.rtDeadlineNs := by
      have hno := List.find?_eq_none.mp hstamped m hstart
      unfold unstamped at hno
      rw [decide_eq_true_iff, not_not] at hno
      exact hno
    unfold memberStart at hm
    cases hr : s.replies.get x.name with
    | none =>
      rw [hr] at hm
      cases hm
    | some o =>
      rw [hr] at hm
      cases o with
      | ended text => cases hm
      | report r =>
        cases r with
        | refused g error verdict => cases hm
        | selected g selectedNs deadlineNs referenceId =>
          obtain rfl := Except.ok.inj hm
          obtain ⟨hlog, hown⟩ := h.replies x.name _ hr
          have hg : g = groupId := by
            by_contra hne
            have hforeign : foreign groupId (.selected g selectedNs deadlineNs referenceId) = true := decide_eq_true hne
            rw [hown] at hforeign
            cases hforeign
          subst hg
          exact ⟨selectedNs, deadlineNs, referenceId, hlog, hpositive.1, hpositive.2, _, hstart, rfl, rfl, rfl⟩

/-- a start that returns has a whole record, and one that raises knows what it knew -/
theorem startMembers_ends {rounds : ℕ} (h : Ready groupId requests base s) (hempty : s.executions = {}) :
    Ends (fun r t => Started.Whole c groupId r t) (fun _ t => Known requests t ∧ t.cancelErrors = {})
      (startMembers c groupId requests rounds) s := by
  unfold startMembers
  rw [ends_bind]
  refine (joinEach_ends.and (joinEach_keeps s h)).mono (fun domains t ht => ?_) fun _ t ht => ⟨ht.2.toKnown, ht.2.errors⟩
  obtain ⟨⟨hnames, -, hexec, hjoined⟩, hready⟩ := ht
  have h₁ := hready.rebase
  rw [ends_bind]
  refine (domainOf_ends.and (domainOf_keeps t h₁)).mono (fun d u hu => ?_) fun _ _ hu => ⟨hu.2.toKnown, hu.2.errors⟩
  obtain ⟨⟨rfl, domain, hall, hd⟩, -⟩ := hu
  rw [ends_bind]
  have hbefore : ∀ m ∈ c.names, u.executions.get m = none := by
    intro m _
    rw [hexec, hempty]
    rfl
  refine (stage_ready c.distinct h₁ hbefore).mono (fun _ v hv => ?_) fun _ _ hv => ⟨hv.toKnown, hv.errors⟩
  rw [ends_bind]
  refine (releaseEach_ends.and (releaseEach_keeps v hv)).mono (fun released w hw => ?_) fun _ _ hw => ⟨hw.2.toKnown, hw.2.errors⟩
  obtain ⟨hreleased, hw⟩ := hw
  rw [ends_bind]
  refine (checkReleased_keeps w hw).mono (fun _ x hx => ?_) fun _ _ hx => ⟨hx.toKnown, hx.errors⟩
  rw [ends_bind]
  refine (look_keeps x hx).mono (fun _ y hy => ?_) fun _ _ hy => ⟨hy.toKnown, hy.errors⟩
  refine ((recordOf_ends hy).and (recordOf_keeps y hy)).mono (fun r z hz => ?_) fun _ _ hz => ⟨hz.2.toKnown, hz.2.errors⟩
  obtain ⟨⟨rfl, hdomain, hreports⟩, -⟩ := hz
  refine ⟨⟨domain, hdomain.trans hd, fun m hm => ?_⟩, fun m hm => ?_⟩
  · have hmem : m ∈ domains.map Prod.fst := by
      rw [hnames, List.zipIdx_map_fst]
      exact hm
    obtain ⟨x, hx, rfl⟩ := List.mem_map.mp hmem
    rw [← hall x hx]
    exact hy.log (hjoined x hx)
  · rw [← hreleased] at hm
    obtain ⟨x, hx, rfl⟩ := List.mem_map.mp hm
    exact hreports x hx

/-! ## a start that is cancelled -/

/-- what a cancel at `name` leaves of the other members -/
structure Spares (name : String) (s t : GroupState) : Prop where
  members : ∀ m, m ≠ name → t.members m = s.members m
  executions : t.executions = s.executions
  log : s.log ⊆ t.log
  submissions : ∀ m taken answered, .submitted m taken answered ∈ t.log → .submitted m taken answered ∈ s.log
  errors : ∀ m, m ≠ name → t.cancelErrors.get m = s.cancelErrors.get m

theorem Spares.refl (name : String) (s : GroupState) : Spares name s s :=
  ⟨fun _ _ => rfl, rfl, fun _ hx => hx, fun _ _ _ hx => hx, fun _ _ => rfl⟩

theorem Spares.trans {t u : GroupState} (h : Spares name s t) (h' : Spares name t u) : Spares name s u where
  members m hm := (h'.members m hm).trans (h.members m hm)
  executions := h'.executions.trans h.executions
  log := fun _ hx => h'.log (h.log hx)
  submissions m taken answered hx := h.submissions m taken answered (h'.submissions m taken answered hx)
  errors m hm := (h'.errors m hm).trans (h.errors m hm)

theorem spares_update {w : Supervised} : Spares name s { s with members := Function.update s.members name w } :=
  ⟨fun _ hm => Function.update_of_ne hm _ _, rfl, fun _ hx => hx, fun _ _ _ hx => hx, fun _ _ => rfl⟩

theorem spares_setError {e : CallError} : Spares name s (setError name e s) :=
  ⟨fun _ _ => rfl, rfl, fun _ hx => hx, fun _ _ _ hx => hx, fun _ hm => Dict.get_set_ne hm⟩

theorem setDefaultError_named (name : String) (s : GroupState) (e : CallError) : Spares name s (setDefaultError name e s) ∧
    (setDefaultError name e s).cancelErrors.get name ≠ none := by
  unfold setDefaultError
  split_ifs with h
  · exact ⟨.refl name s, fun hn => Bool.false_ne_true ((congrArg Option.isSome hn).symm.trans h)⟩
  · refine ⟨spares_setError, ?_⟩
    show (s.cancelErrors.set name _).get name ≠ none
    rw [Dict.get_set_self]
    exact Option.some_ne_none _

/-- what is known of the executions does not depend on the errors -/
theorem Known.setDefault {e : CallError} (h : Known requests s) : Known requests (setDefaultError name e s) := by
  unfold setDefaultError
  split_ifs
  · exact h
  · exact ⟨h.sound, h.alone, h.answered⟩

/-- an execution that is known has ended, or the member is named; at a member without one nothing happens -/
theorem cancelExecution_ends (h : Known requests s) :
    Ends (fun _ t => Known requests t ∧ Spares name s t ∧ (s.executions.get name = none → t = s) ∧
      ∀ i r, s.executions.get name = some i → requests.get name = some r →
        NoLive (t.members name).world.ledger r.requestId ∨ t.cancelErrors.get name ≠ none)
      (fun _ _ => False) (cancelExecution c name) s := by
  unfold cancelExecution
  rw [ends_bind, ends_get]
  cases hi : s.executions.get name with
  | none => exact ⟨h, .refl name s, fun _ => rfl, fun i r hi' => (Option.some_ne_none _ hi'.symm).elim⟩
  | some i =>
    show Ends _ _ (attempt name (onWorld (Executions.cancel (c.arms name).env i)) >>= _) s
    unfold onWorld
    rw [ends_bind, ends_attempt, ends_zoom]
    have hop : ∀ r, some (Op.cancel i) ≠ some (.submit r) := fun r hr => Op.noConfusion (Option.some.inj hr)
    refine Executions.cancel_ends.mono (fun status w hw => ?_) fun e w hw => ?_
    · have hfollow := follows_onward hw.1 hop
      refine ⟨h.follow hfollow, spares_update, fun hn => (Option.some_ne_none _ hn).elim, fun i' r hi' hr => .inl ?_⟩
      obtain rfl := Option.some.inj hi'
      show NoLive (Function.update s.members name _ name).world.ledger _
      rw [Function.update_self]
      intro j y hy hp
      cases hlive : y.live with
      | false => rfl
      | true =>
        obtain rfl := ((h.alone name i r hi hr).dwindles hfollow.dwindles) j y hy hlive hp
        obtain ⟨x, hx, hphase⟩ := hw.2.1.entry
        obtain rfl := Option.some.inj (hx.symm.trans hy)
        exact hlive.symm.trans (Executions.Reply.ended_of hw.2.1.terminal hphase)
    · have hknown : Known requests { s with members := Function.update s.members name { s.members name with world := w } } :=
        h.follow (follows_onward hw hop)
      obtain ⟨hspares, hnamed⟩ := setDefaultError_named name
        { s with members := Function.update s.members name { s.members name with world := w } } e
      exact ⟨hknown.setDefault, spares_update.trans hspares, fun hn => (Option.some_ne_none _ hn).elim, fun _ _ _ _ => .inr hnamed⟩

/-- a member that the clean-up of `s` has not come to -/
structure Waiting (requests : Dict String TrajectoryRequest) (s : GroupState) (m : String) (t : GroupState) : Prop where
  known : Known requests t
  member : t.members m = s.members m
  executions : t.executions = s.executions
  unnamed : t.cancelErrors.get m = none
  submissions : ∀ a, .submitted m true a ∈ t.log → .submitted m true a ∈ s.log
  log : s.log ⊆ t.log

/-- the clean-up of `s` has come to a member: an execution that is known has ended or the member is named, and of a member
without one the group's cancel decides alone -/
structure Settled (c : SdkGroupCoordinator) (groupId : ℕ) (requests : Dict String TrajectoryRequest) (s : GroupState) (m : String)
    (t : GroupState) : Prop where
  attempted : .cancelled m ∈ t.log
  submissions : ∀ a, .submitted m true a ∈ t.log → .submitted m true a ∈ s.log
  log : s.log ⊆ t.log
  ended : ∀ i r, s.executions.get m = some i → requests.get m = some r →
    NoLive (t.members m).world.ledger r.requestId ∨ t.cancelErrors.get m ≠ none
  alone : s.executions.get m = none → t.members m = leaves (groupCancel (c.arms m) groupId) (s.members m) ∧
    (t.cancelErrors.get m = none ↔ ∃ b w, groupCancel (c.arms m) groupId (s.members m) = .ok b w)

theorem Waiting.spared {t u : GroupState} {m : String} (h : Waiting requests s m t) (hs : Spares name t u) (hm : m ≠ name)
    (hu : Known requests u) : Waiting requests s m u where
  known := hu
  member := (hs.members m hm).trans h.member
  executions := hs.executions.trans h.executions
  unnamed := (hs.errors m hm).trans h.unnamed
  submissions a hx := h.submissions a (hs.submissions m true a hx)
  log := fun _ hx => hs.log (h.log hx)

theorem Settled.spared {t u : GroupState} {m : String} (h : Settled c groupId requests s m t) (hs : Spares name t u) (hm : m ≠ name) :
    Settled c groupId requests s m u where
  attempted := hs.log h.attempted
  submissions a hx := h.submissions a (hs.submissions m true a hx)
  log := fun _ hx => hs.log (h.log hx)
  ended := by
    rw [hs.members m hm, hs.errors m hm]
    exact h.ended
  alone := by
    rw [hs.members m hm, hs.errors m hm]
    exact h.alone

theorem spares_note {n : Note} (hn : ∀ m t a, n ≠ .submitted m t a) : Spares name s (s.note n) :=
  ⟨fun _ _ => rfl, rfl, fun _ hx => List.mem_append_left _ hx, fun m taken answered hx => by
    rcases List.mem_append.mp hx with hx | hx
    · exact hx
    · exact absurd (List.mem_singleton.mp hx).symm (hn m taken answered), fun _ _ => rfl⟩

theorem cancelOne_ends {t : GroupState} (h : Waiting requests s name t) :
    Ends (fun _ u => Known requests u ∧ Spares name t u ∧ Settled c groupId requests s name u) (fun _ _ => False)
      (cancelOne c groupId name) t := by
  have hcancelled : ∀ m taken a, Note.cancelled name ≠ .submitted m taken a := fun _ _ _ hn => Note.noConfusion hn
  have hnote : Spares name t (t.note (.cancelled name)) := spares_note hcancelled
  have hknown := h.known.note hcancelled
  -- the execution is cancelled whatever the group's cancel came to
  have hgoOn : ∀ {u : GroupState}, Known requests u → Spares name (t.note (.cancelled name)) u →
      (s.executions.get name = none → u.members name = leaves (groupCancel (c.arms name) groupId) (s.members name) ∧
        (u.cancelErrors.get name = none ↔ ∃ b w, groupCancel (c.arms name) groupId (s.members name) = .ok b w)) →
      Ends (fun _ v => Known requests v ∧ Spares name t v ∧ Settled c groupId requests s name v) (fun _ _ => False)
        (cancelExecution c name) u := by
    intro u hu hspares halone
    have hsame : u.executions = s.executions := hspares.executions.trans h.executions
    refine (cancelExecution_ends hu).mono (fun _ v hv => ?_) fun _ _ h => h
    obtain ⟨hv, hspares', hnone, hsome⟩ := hv
    have hall := (hnote.trans hspares).trans hspares'
    refine ⟨hv, hall, ?_, fun a hx => h.submissions a (hall.submissions name true a hx), fun _ hx => hall.log (h.log hx),
      fun i r hi => hsome i r (by rw [hsame]; exact hi), fun hn => ?_⟩
    · exact hspares'.log (hspares.log (List.mem_append_right _ (List.mem_singleton_self _)))
    · rw [hnone (by rw [hsame]; exact hn)]
      exact halone hn
  have hmember : (t.note (.cancelled name)).members name = s.members name := h.member
  unfold cancelOne
  rw [ends_bind, ends_modify, ends_bind, ends_attempt]
  refine ends_of (fun b w hw => ?_) fun e w hw => ?_
  · refine hgoOn (hknown.follow ((groupCancel_follows _).of_ok hw)) spares_update fun _ => ⟨?_, fun _ => ⟨b, w, ?_⟩, fun _ => h.unnamed⟩
    · rw [← hmember, leaves, hw]
      exact Function.update_self ..
    · rw [← hmember, hw]
  · show Ends _ _ (modify _ >>= _) _
    rw [ends_bind, ends_modify]
    have hfollowed : Known requests { t.note (.cancelled name) with members := Function.update t.members name w } :=
      hknown.follow ((groupCancel_follows _).of_error hw)
    refine hgoOn ⟨hfollowed.sound, hfollowed.alone, hfollowed.answered⟩ (spares_update.trans spares_setError) fun _ => ⟨?_, fun hn => ?_, fun hex => ?_⟩
    · rw [← hmember, leaves, hw]
      exact Function.update_self ..
    · exact (Option.some_ne_none _ (Dict.get_set_self.symm.trans hn)).elim
    · obtain ⟨b, w', hok⟩ := hex
      rw [← hmember, hw] at hok
      cases hok

/-- the clean-up comes to every member -/
theorem cancel_settles (h : Known requests s) (herrors : s.cancelErrors = {}) :
    ∀ m ∈ c.names, Settled c groupId requests s m (leaves (cancel c groupId) s) := by
  have hall : Ends (fun _ t => (∀ m ∈ c.names, Settled c groupId requests s m t) ∧
      ∀ m, m ∉ c.names → Settled c groupId requests s m s → Settled c groupId requests s m t) (fun _ _ => False) (cancel c groupId) s := by
    refine Ends.each_all (P := Waiting requests s) c.distinct (fun m _ => ⟨h, rfl, rfl, ?_, fun _ hx => hx, fun _ hx => hx⟩) fun m t ht => ?_
    · rw [herrors]
      rfl
    · refine (cancelOne_ends ht).mono (fun _ u hu => ?_) fun _ _ h => h
      exact ⟨hu.2.2, fun y hy hw => hw.spared hu.2.1 hy hu.1, fun y hy hs => hs.spared hu.2.1 hy⟩
  exact holds_iff.mp (hall.mono (fun _ _ ht => ht.1) fun _ _ h => h.elim)

/-! ## every start -/

/-- supervisors in a state that they can be in -/
structure Fleet where
  member : String → Supervised
  sound : ∀ m, (member m).world.ledger.Sound

/-- an execution of this start is live at the member -/
def LeftLive (requests : Dict String TrajectoryRequest) (s : GroupState) (m : String) : Prop :=
  (∃ answered, .submitted m true answered ∈ s.log) ∧
    ∃ r, requests.get m = some r ∧ ¬ NoLive (s.members m).world.ledger r.requestId

/-- a start is all or cancelled -/
def AllOrCancelled (c : SdkGroupCoordinator) (groupId : ℕ) (requests : Dict String TrajectoryRequest) :
    Started × GroupState → Prop
  | (.invalid _, _) => True
  | (.record r, s) => Started.Whole c groupId r s
  | (.raised _ errors, s) => ∀ m ∈ c.names, .cancelled m ∈ s.log ∧ (LeftLive requests s m → m ∈ errors.keys)

/-- where the clean-up of a start that fails begins -/
def cleanUp (c : SdkGroupCoordinator) (groupId : ℕ) (requests : Dict String TrajectoryRequest) (rounds : ℕ)
    (members : String → Supervised) : Option GroupState :=
  match validate c requests with
  | some _ => none
  | none =>
    match startMembers c groupId requests rounds { members := members } with
    | .ok _ _ => none
    | .error _ s => some s

/-- where the clean-up begins, the member's supervisor has taken a submission whose answer was lost, and its answer to the group's
cancel is no error while the execution goes on -/
structure Overlooked (c : SdkGroupCoordinator) (groupId : ℕ) (requests : Dict String TrajectoryRequest) (s : GroupState)
    (m : String) : Prop where
  lost : .submitted m true false ∈ s.log ∧ s.executions.get m = none
  escapes : ∃ b w r, groupCancel (c.arms m) groupId (s.members m) = .ok b w ∧ requests.get m = some r ∧
    ¬ NoLive w.world.ledger r.requestId

theorem ready_init (fleet : Fleet) : Ready groupId requests [] { members := fleet.member } where
  sound := fleet.sound
  alone _ _ _ hi := by cases hi
  answered _ hlog := absurd hlog List.not_mem_nil
  replies _ _ hr := by cases hr
  log := fun _ hx => hx
  errors := rfl

theorem mem_keys_of_ne {d : Dict String String} {k : String} : k ∈ d.keys ↔ d.get k ≠ none := by
  rw [Dict.mem_keys, Option.ne_none_iff_exists']

/-- after the clean-up of `s`, a member is left live and unnamed exactly when it was overlooked -/
theorem Settled.left_iff {t : GroupState} {m : String} (h : Known requests s) (hm : Settled c groupId requests s m t) :
    LeftLive requests t m ∧ t.cancelErrors.get m = none ↔ Overlooked c groupId requests s m := by
  constructor
  · rintro ⟨⟨⟨answered, hsub⟩, r, hr, hlive⟩, hunnamed⟩
    have hnone : s.executions.get m = none := by
      cases hi : s.executions.get m with
      | none => rfl
      | some i =>
        rcases hm.ended i r hi hr with hend | hnamed
        · exact absurd hend hlive
        · exact absurd hunnamed hnamed
    obtain ⟨hstate, hok⟩ := hm.alone hnone
    obtain ⟨b, w, hcancel⟩ := hok.mp hunnamed
    rw [hstate, leaves, hcancel] at hlive
    refine ⟨⟨?_, hnone⟩, b, w, r, hcancel, hr, hlive⟩
    cases answered with
    | false => exact hm.submissions false hsub
    | true =>
      have hsome := h.answered m (hm.submissions true hsub)
      rw [hnone] at hsome
      cases hsome
  · rintro ⟨⟨hlost, hnone⟩, b, w, r, hcancel, hr, hlive⟩
    obtain ⟨hstate, hok⟩ := hm.alone hnone
    refine ⟨⟨⟨false, hm.log hlost⟩, r, hr, ?_⟩, hok.mpr ⟨b, w, hcancel⟩⟩
    rw [hstate, leaves, hcancel]
    exact hlive

/-- **A start is all or cancelled exactly when its clean-up overlooks no member.** -/
theorem group_all_or_cancelled (c : SdkGroupCoordinator) (groupId : ℕ) (requests : Dict String TrajectoryRequest) (rounds : ℕ)
    (fleet : Fleet) : AllOrCancelled c groupId requests (start c groupId requests rounds fleet.member) ↔
      ∀ s, cleanUp c groupId requests rounds fleet.member = some s → ∀ m ∈ c.names, ¬ Overlooked c groupId requests s m := by
  unfold start cleanUp
  cases hv : validate c requests with
  | some e => exact ⟨fun _ s hs => (Option.some_ne_none _ hs.symm).elim, fun _ => trivial⟩
  | none =>
    dsimp only
    have hends : Ends (fun r t => Started.Whole c groupId r t) (fun _ t => Known requests t ∧ t.cancelErrors = {})
        (startMembers c groupId requests rounds) { members := fleet.member } := startMembers_ends (ready_init fleet) rfl
    cases hs : startMembers c groupId requests rounds { members := fleet.member } with
    | ok r s => exact ⟨fun _ s hs => (Option.some_ne_none _ hs.symm).elim, fun _ => hends.of_ok hs⟩
    | error e s =>
      dsimp only
      obtain ⟨hknown, herrors⟩ := hends.of_error hs
      have hsettled : ∀ m ∈ c.names, Settled c groupId requests s m (leaves (cancel c groupId) s) := cancel_settles hknown herrors
      constructor
      · rintro hall s' hs' m hm hover
        obtain rfl := Option.some.inj hs'
        obtain ⟨hleft, hunnamed⟩ := ((hsettled m hm).left_iff hknown).mpr hover
        exact mem_keys_of_ne.mp ((hall m hm).2 hleft) hunnamed
      · intro hno m hm
        refine ⟨(hsettled m hm).attempted, fun hleft => mem_keys_of_ne.mpr fun hunnamed => ?_⟩
        exact hno s rfl m hm (((hsettled m hm).left_iff hknown).mp ⟨hleft, hunnamed⟩)

/-! ## two lifts -/

def liftRequest (name : String) : TrajectoryRequest where
  requestId := name
  instanceId := name
  jointNames := ["lift"]
  trajectory := { times := [0, 1], positions := [[0], [1]], velocities := none }
  start := .onRelease

/-- an arm whose supervisor answers by `turn` -/
def liftMember (turn : ℕ → Turn) : GroupArm where
  env := { turn := turn, polls := fun _ => 0 }
  group := true
  capable := true
  armEpoch _ := 1
  exchange _ := .done
  clockDomain _ := none
  committing _ := none
  report _ _ := none
  budgetBoundNs := 1
  clock _ := 0

/-- the submission is taken, and its answer is lost -/
def losing : ℕ → Turn
  | 1 => { fate := .lost true (.timeout "no reply") }
  | _ => {}

/-- the cancel is taken, and the execution ends -/
def cancelling : ℕ → Turn
  | 3 => { within := [.advance 0 .cancelled] }
  | _ => {}

def twoLifts : SdkGroupCoordinator where
  names := ["left", "right"]
  distinct := by decide
  size := by decide
  arms name := liftMember (if name = "right" then losing else cancelling)
  budgetNs := 1
  horizonS := 1
  positive := by decide

def liftRequests : Dict String TrajectoryRequest := ⟨[("left", liftRequest "left"), ("right", liftRequest "right")], by decide⟩

/-- the members that an exception names -/
def Started.named : Started → Option (List String)
  | .raised _ errors => some errors.keys
  | _ => none

/-- **A member whose reply was lost stays staged**, and no error names it. -/
theorem lost_submission_stays : ¬ ∀ (c : SdkGroupCoordinator) (groupId : ℕ) (requests : Dict String TrajectoryRequest) (rounds : ℕ)
    (fleet : Fleet), AllOrCancelled c groupId requests (start c groupId requests rounds fleet.member) := by
  intro hall
  have h := hall twoLifts 7 liftRequests 0 ⟨fun _ => {}, fun _ => sound_nil⟩
  obtain ⟨result, hresult⟩ : ∃ result, result = start twoLifts 7 liftRequests 0 fun _ => {} := ⟨_, rfl⟩
  rw [← hresult] at h
  have hnamed : result.1.named = some [] := by
    rw [hresult]
    decide +kernel
  have hlost : .submitted "right" true false ∈ result.2.log := by
    rw [hresult]
    decide +kernel
  have hlive : (result.2.members "right").world.ledger[0]?.map (fun e => (e.planId, e.live)) = some ("right", true) := by
    rw [hresult]
    decide +kernel
  obtain ⟨started, s⟩ := result
  cases started with
  | invalid e => cases hnamed
  | record r => cases hnamed
  | raised e errors =>
    obtain ⟨x, hx, hflags⟩ := Option.map_eq_some_iff.mp hlive
    obtain ⟨hid, hgoes⟩ := Prod.mk.inj hflags
    have hmem : "right" ∈ errors.keys :=
      (h "right" (by decide)).2 ⟨⟨false, hlost⟩, liftRequest "right", by decide, fun hno => by
        rw [hno 0 x hx hid] at hgoes
        cases hgoes⟩
    rw [Option.some.inj hnamed] at hmem
    exact List.not_mem_nil hmem

end ArmControl.MultiArm.GroupStart
