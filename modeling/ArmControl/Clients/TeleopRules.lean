import Mathlib.Algebra.Order.Ring.Abs
import ArmControl.Lib.Run
import ArmControl.Lib.Since
import ArmControl.Clients.Teleop

/-!
# The deadman's discipline

* `Driven`          what a revision that is sent in one call satisfies;
* `settles`         the entry that ends the doubt about a revision;
* `View`, `During`  what holds inside a call that began in `s₀`;
* `command_during`  and one lemma for each call;
* `deadman_discipline`   **the rules of every run.**
-/

namespace ArmControl.Clients.Teleop

open Effect History Execution.Values

/-! ## the rules -/

/-- the session of a revision -/
def Entry.revises : Entry → Option ℕ
  | .revised k _ _ _ => some k
  | _ => none

def IsRevision (o : Entry) : Prop := o.revises ≠ none

/-- a stop of the session was requested -/
def stopRequested (k : ℕ) (log : List Entry) : Bool :=
  log.any fun o =>
    match o with
    | .stopping j => j == k
    | _ => false

/-- the later entry ends the doubt about the revision -/
def settles : Entry → Entry → Prop
  | .revised _ _ _ rev, .settled rid => rid = rev.requestId
  | .revised k _ _ _, .gone k' => k' = k
  | _, _ => False

/-- the deadman was last refreshed at `t` -/
def LastBeat (log : List Entry) (t : ℚ) : Prop := Since (fun _ o => o = .beat t) (fun o => ∀ t', o ≠ .beat t') log

/-- how long the suffix of a revision lasts -/
def duration (rev : StreamRevision) : ℚ := rev.suffix.val.times.getLastD 0 - rev.suffix.val.times.headD 0

/-- where the suffix of a revision ends -/
def destination (rev : StreamRevision) : List ℚ := rev.suffix.val.positions.getLastD []

/-- no joint moves further than the speed limit allows -/
structure Bounded {σ : Type} (c : Config σ) (measured : List ℚ) (rev : StreamRevision) : Prop where
  duration : duration rev ≤ c.timeout
  joints : (destination rev).length = measured.length
  reach : ∀ x ∈ (destination rev).zip measured, |x.1 - x.2| ≤ c.speed * Teleop.duration rev

/-- the call `i` in the state `s` may send the revision -/
structure Driven {σ : Type} (c : Config σ) (s : DeadmanTeleop σ) (i : DeadmanTeleop.Input) (session : ℕ) (checkedAt : ℚ)
    (measured : List ℚ) (rev : StreamRevision) : Prop where
  held : ∃ target, i = .command target true
  opened : ∃ ss, s.session = some ss ∧ ss.closed = false ∧ ss.serial = session
  fresh : ∃ b, LastBeat s.link.log b ∧ checkedAt - b ≤ c.timeout
  bounded : Bounded c measured rev

/-- a revision is sent when every one before it is settled -/
def Alone (before : List Entry) (o : Entry) : Prop := IsRevision o → Answered IsRevision settles before

/-- no revision follows a requested stop of its session -/
def NotStopped (before : List Entry) (o : Entry) : Prop := ∀ k ∈ o.revises, stopRequested k before = false

/-! ## one step toward the target -/

namespace DeadmanTeleop

variable {σ : Type} {c : Config σ}

/-- the duration of a step is long enough for its travel -/
theorem pace_fin (r : ℚ) : ∃ h, pace c (.fin r) = .fin h ∧ r ≤ c.speed * h ∧ (c.timeout < h → h = r / c.speed) := by
  have hspeed : (0 : ℚ) < c.speed := c.positive.2.1
  unfold pace
  rw [Value.fin_div r hspeed.ne', Value.lt_fin]
  split_ifs with hmin
  · refine ⟨c.minStep, rfl, ?_, fun hlate => absurd c.fits (not_le.mpr hlate)⟩
    exact ((div_lt_iff₀' hspeed).mp (of_decide_eq_true hmin)).le
  · exact ⟨r / c.speed, rfl, (mul_div_cancel₀ r hspeed.ne').ge, fun _ => rfl⟩

theorem stride_bounded {q target : List Value} (hlen : q.length = target.length) {p : List ℚ} {h : ℚ}
    (hp : (stride c q target).1 = Vec.ofRat p) (hdt : (stride c q target).2.1 = .fin h) :
    ∃ m, q = Vec.ofRat m ∧ h ≤ c.timeout ∧ p.length = m.length ∧ ∀ x ∈ p.zip m, |x.1 - x.2| ≤ c.speed * h := by
  have hspeed : (0 : ℚ) < c.speed := c.positive.2.1
  have htimeout : (0 : ℚ) < c.timeout := c.positive.1
  have hsub : q.length = (Vec.sub target q).length := by rw [Vec.sub, List.length_zipWith, ← hlen, min_self]
  unfold stride at hp hdt
  generalize Vec.sub target q = delta at hp hdt hsub
  dsimp only at hp hdt
  by_cases hlate : (Value.fin c.timeout).lt (pace c (Vec.maxAbs delta)) = true
  · -- shortened: the farthest joint goes as far as the speed allows
    rw [if_pos hlate] at hp hdt
    obtain ⟨m, b, rfl, hb, hmb, rfl⟩ := Vec.eq_ofRat_of_add (by rw [List.length_map, hsub]) hp
    obtain ⟨d, rfl⟩ := Vec.eq_ofRat_of_scale hb
    obtain ⟨r, hr, hr0, hd⟩ := Vec.maxAbs_ofRat d
    obtain ⟨t, ht, -, hquick⟩ := pace_fin (c := c) r
    rw [hr, ht, Value.lt_fin] at hlate
    have hlate' := of_decide_eq_true hlate
    have hfar : c.timeout * c.speed < r := by rwa [hquick hlate', lt_div_iff₀ hspeed] at hlate'
    have hrpos : 0 < r := (mul_pos htimeout hspeed).trans hfar
    rw [hr, Value.fin_div _ hrpos.ne'] at hb
    have hb' : b = d.map fun x => x * (c.speed * c.timeout / r) := by
      refine List.map_injective_iff.mpr (fun x y hxy => Value.fin.inj hxy) (?_ : Vec.ofRat b = Vec.ofRat _)
      rw [← hb, Vec.ofRat, Vec.ofRat, List.map_map, List.map_map]
      rfl
    obtain rfl := Value.fin.inj hdt
    refine ⟨m, rfl, le_rfl, Vec.dist_add hmb fun x hx => ?_⟩
    rw [hb'] at hx
    obtain ⟨y, hy, rfl⟩ := List.mem_map.mp hx
    rw [abs_mul, abs_of_pos (div_pos (mul_pos hspeed htimeout) hrpos), mul_div_assoc']
    rw [div_le_iff₀ hrpos, mul_comm]
    exact mul_le_mul_of_nonneg_left (hd y hy) (mul_pos hspeed htimeout).le
  · rw [if_neg hlate] at hp hdt
    obtain ⟨m, d, rfl, rfl, hmd, rfl⟩ := Vec.eq_ofRat_of_add hsub hp
    obtain ⟨r, hr, hr0, hd⟩ := Vec.maxAbs_ofRat d
    obtain ⟨t, ht, hfar, -⟩ := pace_fin (c := c) r
    rw [hr] at hdt hlate
    obtain rfl : t = h := Value.fin.inj (ht.symm.trans hdt)
    rw [ht, Value.lt_fin, decide_eq_true_eq, not_lt] at hlate
    exact ⟨m, rfl, hlate, Vec.dist_add hmd fun x hx => (hd x hx).trans hfar⟩

/-- the suffix of one step ends at its target after its duration -/
theorem bounded_of_spliced {q target : List Value} (hlen : q.length = target.length) {rid : String} {rev : StreamRevision}
    (h : Spliced rid [(stride c q target).1] (stride c q target).2.1 rev) : Bounded c ((Vec.finites q).getD []) rev := by
  obtain ⟨anchor, rows, dt, hrows, hdt, hcurve⟩ := h.curve
  obtain ⟨p, hp, hrows⟩ := Option.bind_eq_some_iff.mp hrows
  obtain rfl := Option.some.inj (show some [p] = some rows from hrows)
  obtain ⟨m, rfl, htime, hjoints, hreach⟩ := stride_bounded hlen (Vec.finites_eq_some.mp hp) hdt
  rw [Vec.finites_eq_some.mpr rfl]
  have hdur : duration rev = dt := by
    unfold duration
    rw [hcurve]
    show (anchor.cutPhase + dt * ((1 : ℕ) : ℚ)) - (anchor.cutPhase + dt * ((0 : ℕ) : ℚ)) = dt
    push_cast
    ring
  have hdest : destination rev = p := by
    unfold destination
    rw [hcurve]
    rfl
  exact ⟨hdur.le.trans htime, by rw [hdest]; exact hjoints, by rw [hdest, hdur]; exact hreach⟩

/-! ## inside a call -/

/-- what the rules look at -/
structure View where
  log : List Entry
  session : Option StreamSession
  pending : Option String
  lastBeat : ℚ

def view (s : DeadmanTeleop σ) : View where
  log := s.link.log
  session := s.session
  pending := s.pending
  lastBeat := s.lastBeat

/-- the open session waits for the fate of this revision -/
def View.Waits (v : View) (o : Entry) : Prop :=
  ∃ ss t m rev, v.session = some ss ∧ ss.closed = false ∧ v.pending = some rev.requestId ∧ o = .revised ss.serial t m rev

def View.add (v : View) (o : Entry) : View := { v with log := v.log ++ [o] }

/-- what holds of every state -/
structure Sound (v : View) : Prop where
  alone : Justified Alone v.log
  fate : Answered (fun o => IsRevision o ∧ ¬ v.Waits o) settles v.log
  beat : v.session ≠ none → LastBeat v.log v.lastBeat

variable {v v' : View} {o : Entry}

theorem Sound.settled (h : Sound v) (hw : ∀ o, ¬ v.Waits o) : Answered IsRevision settles v.log :=
  h.fate.mono fun o ho => ⟨ho, hw o⟩

theorem not_waits_of_pending (h : v.pending = none) (o : Entry) : ¬ v.Waits o := by
  rintro ⟨ss, t, m, rev, -, -, hp, -⟩
  rw [h] at hp
  cases hp

/-- when nothing waits, the session and the pending revision may be any -/
theorem Sound.change (h : Sound v) (hall : Answered IsRevision settles v.log) {session : Option StreamSession}
    {pending : Option String} (hb : session ≠ none → LastBeat v.log v.lastBeat) :
    Sound { v with session := session, pending := pending } := ⟨h.alone, hall.mono fun _ ho => ho.1, hb⟩

theorem Sound.quiet (h : Sound v) (ho : ¬ IsRevision o) (hb : ∀ t, o ≠ .beat t) : Sound (v.add o) :=
  ⟨h.alone.snoc fun hr => absurd hr ho, h.fate.snoc fun hr => absurd hr.1 ho, fun hs => (h.beat hs).snoc hb⟩

theorem Sound.beaten (h : Sound v) (t : ℚ) : Sound { v.add (.beat t) with lastBeat := t } := by
  exact ⟨h.alone.snoc fun hr => absurd rfl hr, h.fate.snoc fun hr => absurd rfl hr.1, fun _ => .now rfl⟩

/-- the revision that is waited for is settled -/
theorem Sound.settle (h : Sound v) {rid : String} (hp : v.pending = some rid) :
    Sound { v.add (.settled rid) with pending := none } := by
  have hall : Answered IsRevision settles (v.add (.settled rid)).log := by
    refine Answered.close (h.fate.mono fun a ha => ⟨ha.1, ?_⟩) (absurd rfl)
    rintro ⟨ss, t, m, rev, -, -, hpend, rfl⟩
    exact ha.2 (Option.some.inj (hp.symm.trans hpend))
  exact (h.quiet (absurd rfl) fun _ => by nofun).change hall fun hs => (h.beat hs).snoc fun _ => by nofun

/-- a session that is over leaves nothing in doubt -/
theorem Sound.gone (h : Sound v) {ss ss' : StreamSession} (hs : v.session = some ss) (hserial : ss'.serial = ss.serial) :
    Answered IsRevision settles (v.add (.gone ss'.serial)).log ∧
      Sound { v.add (.gone ss'.serial) with session := some ss' } := by
  have hall : Answered IsRevision settles (v.add (.gone ss'.serial)).log := by
    refine Answered.close (h.fate.mono fun a ha => ⟨ha.1, ?_⟩) (absurd rfl)
    rintro ⟨ss₁, t, m, rev, hs₁, -, -, rfl⟩
    obtain rfl := Option.some.inj (hs.symm.trans hs₁)
    exact ha.2 hserial
  have hb : LastBeat v.log v.lastBeat := h.beat (by rw [hs]; exact Option.some_ne_none ss)
  exact ⟨hall, (h.quiet (absurd rfl) fun _ => by nofun).change hall fun _ => hb.snoc fun _ => by nofun⟩

/-- a revision is sent, and waited for -/
theorem Sound.send (h : Sound v) (hw : ∀ o, ¬ v.Waits o) {ss : StreamSession} (hs : v.session = some ss)
    (hopen : ss.closed = false) (t : ℚ) (m : List ℚ) (rev : StreamRevision) :
    Sound { v.add (.revised ss.serial t m rev) with pending := some rev.requestId } := by
  refine ⟨h.alone.snoc fun _ => h.settled hw, Answered.snoc (h.fate.mono fun o ho => ⟨ho.1, hw o⟩) ?_,
    fun hs => (h.beat hs).snoc fun _ => by nofun⟩
  exact fun ho => ho.2 ⟨ss, t, m, rev, hs, hopen, rfl, rfl⟩

/-- a held command passes the deadman on a session whose stop was requested -/
def Pressed (c : Config σ) (s : DeadmanTeleop σ) (i : Input) : Prop :=
  (∃ target, i = .command target true) ∧ (c.clock s.link.world).1 - s.lastBeat ≤ c.timeout ∧
    ∃ ss, s.session = some ss ∧ ss.closed = false ∧ stopRequested ss.serial s.link.log = true

/-- what holds inside the call `i` that began in `s₀` -/
structure During (c : Config σ) (s₀ : DeadmanTeleop σ) (i : Input) (v : View) : Prop where
  sound : Sound v
  grew : ∃ new, v.log = s₀.link.log ++ new ∧ ∀ k t m rev, .revised k t m rev ∈ new → Driven c s₀ i k t m rev
  clean : ¬ Pressed c s₀ i → Justified NotStopped s₀.link.log → Justified NotStopped v.log

variable {s₀ s : DeadmanTeleop σ} {i : Input}

theorem during_of_sound (h : Sound s.view) : During c s i s.view := ⟨h, ⟨[], (List.append_nil _).symm, nofun⟩, fun _ hj => hj⟩

theorem During.keep (h : During c s₀ i v) (hv : Sound v') (hlog : v'.log = v.log) : During c s₀ i v' :=
  ⟨hv, hlog ▸ h.grew, hlog ▸ h.clean⟩

theorem During.snoc (h : During c s₀ i v) (hv : Sound v') (hlog : v'.log = v.log ++ [o]) (ho : ¬ IsRevision o) :
    During c s₀ i v' := by
  obtain ⟨new, hnew, hrev⟩ := h.grew
  refine ⟨hv, ⟨new ++ [o], by rw [hlog, hnew, List.append_assoc], fun k t m rev hk => ?_⟩, fun hp hj => ?_⟩
  · rcases List.mem_append.mp hk with hk | hk
    · exact hrev k t m rev hk
    · obtain rfl := List.mem_singleton.mp hk
      exact absurd nofun ho
  · rw [hlog]
    refine (h.clean hp hj).snoc fun k hk => absurd (fun hnone => ?_) ho
    rw [hnone] at hk
    cases hk

theorem During.sent (h : During c s₀ i v) {k : ℕ} {t : ℚ} {m : List ℚ} {rev : StreamRevision} (hv : Sound v')
    (hlog : v'.log = v.log ++ [Entry.revised k t m rev]) (hd : Driven c s₀ i k t m rev)
    (hstop : ¬ Pressed c s₀ i → stopRequested k v.log = false) : During c s₀ i v' := by
  obtain ⟨new, hnew, hrev⟩ := h.grew
  refine ⟨hv, ⟨new ++ [Entry.revised k t m rev], by rw [hlog, hnew, List.append_assoc], fun k' t' m' rev' hk => ?_⟩, fun hp hj => ?_⟩
  · rcases List.mem_append.mp hk with hk | hk
    · exact hrev k' t' m' rev' hk
    · cases List.mem_singleton.mp hk
      exact hd
  · rw [hlog]
    refine (h.clean hp hj).snoc fun k' hk => ?_
    cases hk
    exact hstop hp

/-! ## the parts of a call -/

variable {α : Type}

/-- the session is the same, and no stop of one was requested -/
structure Carried (s t : DeadmanTeleop σ) : Prop where
  session : t.session = s.session
  stops : ∀ k, stopRequested k s.link.log = false → stopRequested k t.link.log = false

theorem Carried.refl (s : DeadmanTeleop σ) : Carried s s := ⟨rfl, fun _ h => h⟩

theorem stopRequested_snoc (k : ℕ) (log : List Entry) (ho : ∀ k, o ≠ .stopping k) :
    stopRequested k (log ++ [o]) = stopRequested k log := by
  unfold stopRequested
  rw [List.any_append]
  cases o with
  | stopping j => exact absurd rfl (ho j)
  | _ => exact Bool.or_false _

theorem Carried.snoc {t : DeadmanTeleop σ} (hs : t.session = s.session) (hlog : t.link.log = s.link.log ++ [o])
    (ho : ∀ k, o ≠ .stopping k) : Carried s t :=
  ⟨hs, fun k hk => by rw [hlog, stopRequested_snoc k _ ho, hk]⟩

theorem Carried.trans {t u : DeadmanTeleop σ} (h : Carried s t) (h' : Carried t u) : Carried s u :=
  ⟨h'.session.trans h.session, fun k hk => h'.stops k (h.stops k hk)⟩

/-- a part of the call that only reads the world -/
theorem During.linked (h : During c s₀ i s.view) {l : Link σ Entry} (hl : l.log = s.link.log) :
    During c s₀ i (s.setLink l).view := by
  have hview : (s.setLink l).view = s.view := by
    show View.mk l.log s.session s.pending s.lastBeat = _
    rw [hl]
    rfl
  rw [hview]
  exact h

theorem beat_during (h : During c s₀ i s.view) :
    Ends (fun _ t => During c s₀ i t.view ∧ t.pending = s.pending ∧ Carried s t) (fun _ _ => False) (beat c) s := by
  exact ⟨h.snoc (h.sound.beaten _) rfl (absurd rfl), rfl, .snoc rfl rfl nofun⟩

/-- a cancel that is confirmed leaves nothing to wait for -/
theorem closeSession_during {ss : StreamSession} {closing : Entry} {reason : String} (h : During c s₀ i s.view)
    (hs : s.session = some ss) (hc : ¬ IsRevision closing) (hb : ∀ t, closing ≠ .beat t) :
    Ends (fun ok t => During c s₀ i t.view ∧ (ok = true → Answered IsRevision settles t.link.log))
      (fun _ _ => False) (closeSession c closing ss reason) s := by
  unfold closeSession DeadmanTeleop.linked
  rw [ends_bind, ends_zoom]
  refine close_log.mono (fun r l hr => ?_) fun _ _ hf => hf
  -- the cancel may have been requested
  have hmid : During c s₀ i (s.setLink l).view := by
    have hlog := hr.log
    split_ifs at hlog
    · exact h.linked hlog
    · refine h.snoc ?_ hlog hc
      have hview : (s.setLink l).view = s.view.add closing := congrArg (View.mk · s.session s.pending s.lastBeat) hlog
      rw [hview]
      exact h.sound.quiet hc hb
  rw [ends_bind, ends_modify]
  cases hok : r.1 with
  | true =>
    obtain ⟨hall, hsound⟩ := hmid.sound.gone (v := (s.setLink l).view) hs hr.serial
    exact ⟨hmid.snoc hsound rfl (absurd rfl), fun _ => hall⟩
  | false =>
    have hkept : Sound ((s.setLink l).setSession (some r.2)).view → During c s₀ i ((s.setLink l).setSession (some r.2)).view :=
      fun hsound => hmid.keep hsound rfl
    refine ⟨hkept ⟨hmid.sound.alone, ?_, fun _ => ?_⟩, nofun⟩
    · refine hmid.sound.fate.mono fun o ho => ⟨ho.1, ?_⟩
      rintro ⟨ss₁, t, m, rev, hs₁, -, hp, rfl⟩
      obtain rfl := Option.some.inj (hs.symm.trans hs₁)
      refine ho.2 ⟨r.2, t, m, rev, rfl, hr.closed.trans hok, hp, ?_⟩
      rw [hr.serial]
    · exact hmid.sound.beat (by show s.session ≠ none; rw [hs]; exact Option.some_ne_none ss)

theorem closePrevious_during (h : During c s₀ i s.view) :
    Ends (fun ok t => During c s₀ i t.view ∧ (ok = true → Answered IsRevision settles t.link.log))
      (fun _ _ => False) (closePrevious c) s := by
  unfold closePrevious
  rw [ends_bind, ends_get]
  cases hs : s.session with
  | none =>
    refine ⟨h, fun _ => h.sound.settled fun o => ?_⟩
    rintro ⟨ss, t, m, rev, hss, -⟩
    exact absurd (hs.symm.trans hss) nofun
  | some ss =>
    exact closeSession_during h hs (absurd rfl) fun _ => by nofun

theorem start_during (h : During c s₀ i s.view) : Holds (fun t => During c s₀ i t.view) (start c) s := by
  unfold start Holds
  rw [ends_bind]
  refine (closePrevious_during h).mono (fun ok t ht => ?_) fun _ _ hf => hf.elim
  refine ends_ite (fun hok => ?_) fun _ => ht.1
  unfold DeadmanTeleop.linked
  rw [ends_bind, ends_zoom]
  refine openSession_log.mono (fun ss l hl => ?_) fun _ l hl => ht.1.linked hl.1
  have hopen : During c s₀ i (t.setLink l).view := ht.1.linked hl.1
  have hall : Answered IsRevision settles (t.setLink l).view.log := by
    show Answered IsRevision settles l.log
    rw [hl.1]
    exact ht.2 hok
  -- the session is there when the deadman is refreshed
  rw [ends_bind, ends_modify, ends_bind]
  exact hopen.snoc ((hopen.sound.beaten _).change (hall.snoc (absurd rfl)) fun _ => .now rfl) rfl (absurd rfl)

theorem stop_during {ss : StreamSession} {reason : String} {confirmed : Answer} (h : During c s₀ i s.view)
    (hs : s.session = some ss) : Holds (fun t => During c s₀ i t.view) (stop c ss reason confirmed) s := by
  unfold stop Holds
  rw [ends_bind]
  refine (closeSession_during h hs (absurd rfl) fun _ => by nofun).mono (fun ok t ht => ?_) fun _ _ hf => hf.elim
  exact ends_ite (fun _ => ht.1) fun _ => ht.1

theorem readStream_during (ss : StreamSession) (h : During c s₀ i s.view) :
    Ends (fun _ t => During c s₀ i t.view ∧ t.pending = s.pending ∧ Carried s t) (fun _ _ => False) (readStream c ss) s := by
  unfold readStream DeadmanTeleop.linked
  rw [ends_bind, ends_zoom]
  refine ends_attempt_of fun r w => ?_
  cases r with
  | ok view => exact ⟨h.linked rfl, rfl, rfl, fun _ hk => hk⟩
  | error e => exact ⟨h.linked rfl, rfl, rfl, fun _ hk => hk⟩

theorem endSession_during {ss : StreamSession} (h : During c s₀ i s.view) (hs : s.session = some ss) :
    During c s₀ i (endSession ss s).view :=
  h.snoc (@Sound.gone _ h.sound ss { ss with closed := true } hs rfl).2 rfl (absurd rfl)

/-- the revision before is settled, or the command is refused -/
def Settled (c : Config σ) (s₀ : DeadmanTeleop σ) (i : Input) (s : DeadmanTeleop σ) (busy : Bool) (t : DeadmanTeleop σ) : Prop :=
  During c s₀ i t.view ∧ Carried s t ∧ (busy = false → t.pending = none)

theorem settled_pending {rid : String} {u : DeadmanTeleop σ} (h : During c s₀ i u.view) (hp : u.pending = some rid)
    (hc : Carried s u) : Settled c s₀ i s false (setPendingSettled rid u) :=
  ⟨h.snoc (h.sound.settle hp) rfl (absurd rfl), hc.trans (.snoc rfl rfl nofun), fun _ => rfl⟩

theorem settle_during (ss : StreamSession) (h : During c s₀ i s.view) :
    Ends (Settled c s₀ i s) (fun _ _ => False) (settle c ss) s := by
  unfold settle
  rw [ends_bind, ends_get]
  cases hp : s.pending with
  | none => exact ⟨h, .refl s, fun _ => hp⟩
  | some rid =>
    unfold DeadmanTeleop.linked
    rw [ends_bind, ends_zoom]
    refine ends_attempt_of fun r w => ?_
    have hread : During c s₀ i (s.setLink (s.link.setWorld w)).view := h.linked rfl
    have hdone : ∀ report, Settled c s₀ i s false
        (setPendingSettled rid ((s.setLink (s.link.setWorld w)).setReport report)) :=
      fun report => settled_pending hread hp ⟨rfl, fun _ hk => hk⟩
    cases r with
    | ok status =>
      show Ends _ _ (foldStatus rid status) _
      unfold foldStatus
      rw [ends_bind, ends_modify]
      cases classify status with
      | refused => exact hdone _
      | selected => exact hdone _
      | ended => exact hdone _
      | admitted => exact ⟨hread, ⟨rfl, fun _ hk => hk⟩, nofun⟩
      | pending => exact ⟨hread, ⟨rfl, fun _ hk => hk⟩, nofun⟩
    | error e =>
      cases e with
      | refused text => exact hdone _
      | supervisor text => exact hdone _
      | timeout text => exact ⟨hread, ⟨rfl, fun _ hk => hk⟩, nofun⟩
      | os text => exact ⟨hread, ⟨rfl, fun _ hk => hk⟩, nofun⟩

/-! ## the revision of a held command -/

/-- the revision `rid` was not sent, or it was the last thing that happened -/
def Sent (ss : StreamSession) (t : ℚ) (m : List ℚ) (rid : String) (knots : List (List Value)) (dt : Value)
    (s u : DeadmanTeleop σ) : Prop :=
  u.session = s.session ∧ u.pending = s.pending ∧ u.lastBeat = s.lastBeat ∧
    (u.link.log = s.link.log ∨ ∃ rev, Spliced rid knots dt rev ∧ u.link.log = s.link.log ++ [Entry.revised ss.serial t m rev])

theorem sendStep_sent (ss : StreamSession) (rid : String) (t : ℚ) (m : List ℚ) (target : List Value) (dt : Value) :
    Ends (fun r u => Sent ss t m rid [target] dt s u ∧ ∀ e, r = .error e → Raised e) (fun _ _ => False)
      (sendStep c ss rid t m target dt) s := by
  unfold sendStep DeadmanTeleop.linked
  rw [ends_tryCatch, ends_bind, ends_zoom]
  exact revise_log.mono (fun _ l hl => ⟨⟨rfl, rfl, rfl, hl.log⟩, nofun⟩)
    fun e l hl => ⟨⟨rfl, rfl, rfl, hl.1.log⟩, fun e' he => by cases he; exact hl.2⟩

variable {ss : StreamSession} {t : ℚ} {m : List ℚ} {rid : String} {knots : List (List Value)} {dt : Value}
  {u : DeadmanTeleop σ}

/-- what a held command knows when it sends -/
structure Ready (c : Config σ) (s₀ : DeadmanTeleop σ) (i : Input) (ss : StreamSession) (t : ℚ) (s : DeadmanTeleop σ) : Prop where
  during : During c s₀ i s.view
  session : s.session = some ss
  opened : ss.closed = false
  driven : ∀ m rev, Bounded c m rev → Driven c s₀ i ss.serial t m rev
  stops : ¬ Pressed c s₀ i → stopRequested ss.serial s.link.log = false

/-- a revision that is waited for afterwards -/
theorem Ready.waits (h : Ready c s₀ i ss t s) (hp : s.pending = none) (hu : Sent ss t m rid knots dt s u)
    (hb : ∀ rev, Spliced rid knots dt rev → Bounded c m rev) :
    During c s₀ i { u.view with pending := some rid } := by
  obtain ⟨hsession, -, hbeat, hlog | ⟨rev, hrev, hlog⟩⟩ := hu
  · have hview : ({ u.view with pending := some rid } : View) = { s.view with pending := some rid } := by
      show View.mk u.link.log u.session _ u.lastBeat = _
      rw [hlog, hsession, hbeat]
      rfl
    rw [hview]
    exact h.during.keep (h.during.sound.change (h.during.sound.settled (not_waits_of_pending hp)) h.during.sound.beat) rfl
  · have hview : ({ u.view with pending := some rid } : View) =
        { s.view.add (.revised ss.serial t m rev) with pending := some rev.requestId } := by
      show View.mk u.link.log u.session _ u.lastBeat = _
      rw [hlog, hsession, hbeat, hrev.rid]
      rfl
    rw [hview]
    exact h.during.sent (h.during.sound.send (not_waits_of_pending hp) h.session h.opened t m rev) rfl
      (h.driven m rev (hb rev hrev)) h.stops

/-- a revision that is settled at once -/
theorem Ready.settles (h : Ready c s₀ i ss t s) (hp : s.pending = none) (hu : Sent ss t m rid knots dt s u)
    (hb : ∀ rev, Spliced rid knots dt rev → Bounded c m rev) : During c s₀ i (u.add (.settled rid)).view := by
  have hwait := h.waits hp hu hb
  have hview : (u.add (.settled rid)).view =
      { ({ u.view with pending := some rid } : View).add (.settled rid) with pending := none } := by
    show View.mk _ u.session u.pending u.lastBeat = _
    rw [hu.2.1, hp]
    rfl
  rw [hview]
  exact hwait.snoc (hwait.sound.settle rfl) rfl (absurd rfl)

theorem reviseToward_during {q target : List Value} (h : Ready c s₀ i ss t s) (hp : s.pending = none)
    (hlen : q.length = target.length) : Holds (fun u => During c s₀ i u.view) (reviseToward c ss t q target) s := by
  unfold reviseToward Holds
  rw [ends_bind]
  have hnote : Ends (fun _ u => Ready c s₀ i ss t u ∧ u.pending = none) (fun _ _ => False)
      (noteShortened (stride c q target).2.2 : Act σ PUnit) s :=
    ends_ite (fun _ => ⟨⟨h.during, h.session, h.opened, h.driven, h.stops⟩, hp⟩) fun _ => ⟨h, hp⟩
  refine hnote.mono (fun _ u hu => ?_) fun _ _ hf => hf.elim
  rw [ends_bind]
  have hdraw : Ends (fun _ v => Ready c s₀ i ss t v ∧ v.pending = none) (fun _ _ => False)
      (linked (requestId "teleop") : Act σ String) u :=
    ⟨⟨hu.1.during.linked rfl, hu.1.session, hu.1.opened, hu.1.driven, hu.1.stops⟩, hu.2⟩
  refine hdraw.mono (fun rid v hv => ?_) fun _ _ hf => hf.elim
  rw [ends_bind]
  have hb : ∀ rev, Spliced rid [(stride c q target).1] (stride c q target).2.1 rev →
      Bounded c ((Vec.finites q).getD []) rev := fun rev hrev => bounded_of_spliced hlen hrev
  refine (sendStep_sent (c := c) ss rid t _ _ _).mono (fun r w hw => ?_) fun _ _ hf => hf.elim
  have hsettled : During c s₀ i (w.add (.settled rid)).view := hv.1.settles hv.2 hw.1 hb
  have hwaits : During c s₀ i { w.view with pending := some rid } := hv.1.waits hv.2 hw.1 hb
  cases r with
  | ok status =>
    show Ends _ _ (answered rid status) w
    unfold answered
    rw [ends_bind, ends_modify]
    exact ends_ite (fun _ => hsettled) fun _ => hwaits
  | error e =>
    rcases hw.2 e rfl with ⟨text, rfl⟩ | ⟨e', rfl⟩
    · exact hsettled
    · cases e' with
      | refused text => exact hsettled
      | supervisor text => exact hwaits
      | timeout text => exact hwaits
      | os text => exact hwaits

theorem length_broadcast {x y x' y' : List Value} (h : broadcast x y = some (x', y')) : x'.length = y'.length := by
  unfold broadcast at h
  split_ifs at h with heq hx hy
  · cases h
    exact heq
  · cases h
    exact List.length_replicate
  · cases h
    exact List.length_replicate.symm

theorem stepToward_during {target : List Value} (h : Ready c s₀ i ss t s) (hp : s.pending = none) :
    Holds (fun u => During c s₀ i u.view) (stepToward c ss t target) s := by
  unfold stepToward DeadmanTeleop.linked Holds
  rw [ends_bind, ends_zoom]
  refine ends_attempt_of fun r w => ?_
  have hread : Ready c s₀ i ss t (s.setLink (s.link.setWorld w)) :=
    ⟨h.during.linked rfl, h.session, h.opened, h.driven, h.stops⟩
  cases r with
  | error e => exact hread.during
  | ok state =>
    dsimp only
    cases hbroad : broadcast (observed state) target with
    | none => exact hread.during
    | some x => exact ends_ite (fun _ => hread.during) fun _ => reviseToward_during hread hp (length_broadcast hbroad)

theorem drive_during {target : List Value} (h : Ready c s₀ i ss t s) :
    Holds (fun u => During c s₀ i u.view) (drive c ss t target) s := by
  unfold drive Holds
  rw [ends_bind]
  refine (beat_during h.during).mono (fun _ u hu => ?_) fun _ _ hf => hf.elim
  rw [ends_bind]
  refine (readStream_during ss hu.1).mono (fun ended v hv => ?_) fun _ _ hf => hf.elim
  have hcarry : Carried s v := hu.2.2.trans hv.2.2
  refine ends_ite (fun _ => endSession_during hv.1 (hcarry.session.trans h.session)) fun _ => ?_
  rw [ends_bind]
  refine (settle_during ss hv.1).mono (fun busy w hw => ?_) fun _ _ hf => hf.elim
  have hcarry' : Carried s w := hcarry.trans hw.2.1
  refine ends_ite (fun _ => hw.1) fun hbusy => ?_
  refine stepToward_during ⟨hw.1, hcarry'.session.trans h.session, h.opened, h.driven, fun hpress => ?_⟩
    (hw.2.2 (Bool.eq_false_of_not_eq_true hbusy))
  exact hcarry'.stops _ (h.stops hpress)

/-! ## the calls -/

theorem expired_ends : Ends (fun r u => u.view = s.view ∧ r.2 = (c.clock s.link.world).1 ∧
    r.1 = decide (c.timeout < r.2 - s.lastBeat)) (fun _ _ => False) (expired c) s := ⟨rfl, rfl, rfl⟩

theorem command_during {target : List Value} {held : Bool} (h : Sound s.view) :
    Holds (fun u => During c s (.command target held) u.view) (command c target held) s := by
  have hstart : During c s (.command target held) s.view := during_of_sound h
  unfold command Holds
  rw [ends_bind, ends_get]
  cases hs : s.session with
  | none => exact hstart
  | some ss =>
    refine ends_ite (fun _ => hstart) fun hopen => ?_
    have hopen' : ss.closed = false := Bool.eq_false_of_not_eq_true hopen
    refine ends_ite (fun _ => stop_during hstart hs) fun hheld => ?_
    obtain rfl : held = true := Bool.of_not_eq_false hheld
    rw [ends_bind]
    refine expired_ends.mono (fun r u hu => ?_) fun _ _ hf => hf.elim
    have hu' : During c s (.command target true) u.view := hu.1 ▸ hstart
    have hsession : u.session = some ss := (congrArg View.session hu.1).trans hs
    refine ends_ite (fun _ => stop_during hu' hsession) fun hlate => ?_
    rw [hu.2.2, decide_eq_true_eq, not_lt] at hlate
    have hbeat : LastBeat s.link.log s.lastBeat := h.beat (by show s.session ≠ none; rw [hs]; exact Option.some_ne_none ss)
    refine drive_during ⟨hu', hsession, hopen', fun m rev hb => ?_, fun hpress => ?_⟩
    · exact ⟨⟨target, rfl⟩, ⟨ss, hs, hopen', rfl⟩, ⟨s.lastBeat, hbeat, hlate⟩, hb⟩
    · have hlog : u.link.log = s.link.log := congrArg View.log hu.1
      rw [hlog]
      exact Bool.eq_false_of_not_eq_true fun hk => hpress ⟨⟨target, rfl⟩, hu.2.1 ▸ hlate, ss, hs, hopen', hk⟩

theorem tick_during (h : Sound s.view) : Holds (fun u => During c s .tick u.view) (tick c) s := by
  have hstart : During c s .tick s.view := during_of_sound h
  unfold tick Holds
  rw [ends_bind, ends_get]
  cases hs : s.session with
  | none => exact hstart
  | some ss =>
    refine ends_ite (fun _ => hstart) fun _ => ?_
    rw [ends_bind]
    refine expired_ends.mono (fun r u hu => ?_) fun _ _ hf => hf.elim
    have hu' : During c s .tick u.view := hu.1 ▸ hstart
    refine ends_ite (fun _ => ?_) fun _ => hu'
    rw [ends_map]
    exact stop_during hu' ((congrArg View.session hu.1).trans hs)

theorem step_during (h : Sound s.view) (i : Input) : During c s i (step c s i).view := by
  refine (holds_iff (I := fun u : DeadmanTeleop σ => During c s i u.view)).mp ?_
  cases i with
  | start => exact start_during (during_of_sound h)
  | heartbeat => exact (beat_during (during_of_sound h)).mono (fun _ _ hu => hu.1) fun _ _ hf => hf.elim
  | command target held =>
    show Holds _ (command c target held >>= _) s
    unfold Holds
    rw [ends_bind]
    exact (command_during h).mono (fun _ _ hu => hu) fun _ _ hu => hu
  | tick =>
    show Holds _ (tick c >>= _) s
    unfold Holds
    rw [ends_bind]
    exact (tick_during h).mono (fun _ _ hu => hu) fun _ _ hu => hu

/-! ## runs -/

theorem sound_initial (world : σ) : Sound (initial world : DeadmanTeleop σ).view :=
  ⟨justified_nil, answered_nil, fun h => absurd rfl h⟩

theorem sound_run (world : σ) (is : List Input) : Sound (Run.run (step c) (initial world) is).view :=
  Run.invariant (I := fun s : DeadmanTeleop σ => Sound s.view) (C := fun _ _ => True) (sound_initial world)
    (fun _ i _ h => (step_during h i).sound) (Run.along_of_forall (fun _ _ => trivial) is)

/-- **Deadman discipline.**  In every run in which no held command passes the deadman on a session whose stop was
requested, whatever the supervisor answers: a call sends a revision only as a held command on the open session, within
the timeout of the last start, heartbeat or held command, and the suffix lasts no longer than the timeout and moves no
joint faster than the limit from the measured pose; a revision is sent only when every one before it is settled; and no
revision follows the requested stop of its session. -/
theorem deadman_discipline (c : Config σ) (world : σ) (is : List Input)
    (h : Run.Along (step c) (fun s i => ¬ Pressed c s i) (initial world) is) :
    (∀ i, ∃ new, (step c (Run.run (step c) (initial world) is) i).link.log = (Run.run (step c) (initial world) is).link.log ++ new ∧
      ∀ k t m rev, .revised k t m rev ∈ new → Driven c (Run.run (step c) (initial world) is) i k t m rev) ∧
    Justified Alone (Run.run (step c) (initial world) is).link.log ∧
    Justified NotStopped (Run.run (step c) (initial world) is).link.log := by
  refine ⟨fun i => (step_during (sound_run world is) i).grew, (sound_run (c := c) world is).alone, ?_⟩
  have hboth : Sound (Run.run (step c) (initial world) is).view ∧
      Justified NotStopped (Run.run (step c) (initial world) is).link.log :=
    Run.invariant (I := fun s : DeadmanTeleop σ => Sound s.view ∧ Justified NotStopped s.link.log)
      ⟨sound_initial world, justified_nil⟩
      (fun _ i hpress h => ⟨(step_during h.1 i).sound, (step_during h.1 i).clean hpress h.2⟩) h
  exact hboth.2

/-! ## a stop that is not confirmed -/

/-- the cancels of the arm time out -/
def deafConfig : Config PUnit where
  arm := restArm false
  ctx := restContext
  timeout := 1 / 2
  speed := 1
  minStep := 1 / 10
  holdS := 1
  clock w := (0, w)
  positive := by decide +kernel
  fits := by decide +kernel

/-- the deadman is released, the cancel is not confirmed, and the deadman is pressed again -/
def pressedAgain : List Input := [.start, .command [.fin 1] false, .command [.fin 1] true]

theorem deadman_revises_after_stop :
    ¬ ∀ (c : Config PUnit) (world : PUnit) (is : List Input), Justified NotStopped (Run.run (step c) (initial world) is).link.log := by
  intro h
  have hsent : ((Run.run (step deafConfig) (initial ⟨⟩) pressedAgain).link.log[3]?.any fun o => o.revises == some 1) = true := by
    decide +kernel
  obtain ⟨o, ho, hrev⟩ := (Option.any_eq_true ..).mp hsent
  have hstop := (h deafConfig ⟨⟩ pressedAgain).get ho 1 (eq_of_beq hrev)
  exact absurd hstop (by decide +kernel)

/-- a held command moves the arm -/
theorem deadman_discipline_drives :
    (∀ i, ∃ new, (step deafConfig (Run.run (step deafConfig) (initial ⟨⟩) [.start, .command [.fin 1] true]) i).link.log =
        (Run.run (step deafConfig) (initial ⟨⟩) [.start, .command [.fin 1] true]).link.log ++ new ∧
      ∀ k t m rev, .revised k t m rev ∈ new →
        Driven deafConfig (Run.run (step deafConfig) (initial ⟨⟩) [.start, .command [.fin 1] true]) i k t m rev) ∧
    Justified Alone (Run.run (step deafConfig) (initial ⟨⟩) [.start, .command [.fin 1] true]).link.log ∧
    Justified NotStopped (Run.run (step deafConfig) (initial ⟨⟩) [.start, .command [.fin 1] true]).link.log := by
  refine deadman_discipline deafConfig ⟨⟩ [.start, .command [.fin 1] true]
    (Run.along_cons.mpr ⟨?_, Run.along_cons.mpr ⟨?_, Run.along_nil⟩⟩)
  · rintro ⟨⟨target, h⟩, -⟩
    cases h
  · rintro ⟨-, -, ss, hss, -, h⟩
    have hserial : (step deafConfig (initial ⟨⟩) .start).session.map StreamSession.serial = some 1 := by decide +kernel
    rw [hss] at hserial
    rw [Option.some.inj hserial] at h
    exact absurd h (by decide +kernel)

end DeadmanTeleop

end ArmControl.Clients.Teleop
