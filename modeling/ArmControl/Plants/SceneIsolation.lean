import ArmControl.Plants.SceneCore

/-!
# Actors of one world keep to their slices

* `standing`, `Silent`       what a slice holds by its actor's last write, and a deadman that has expired;
* `Undisturbed`              a host step as the actors wrote it: every slice is its actor's;
* `deadmans`                 what the deadmans of a tick change, by induction on the actors;
* `Kept`                     the invariant of the step calls, one lemma for each thing a call does;
* `host_steps_the_slices`    every host step of every run.

The Cartesian law is the exception: it is one field of the world, and the deadman of ANY actor clears it.
-/

set_option linter.unusedSectionVars false

namespace ArmControl.Plants.Scene

section
variable {ι α κ π : Type*} {n : ℕ} [DecidableEq ι] [DecidableEq α] [Zero α] [NatCast α] {w : World ι n} {host : ι}

/-- what the slice of `a` holds at the time `now`, by the last command that `a` wrote: the spawn hold if it wrote none -/
def standing (hold : Vectors α n) (a : ι) (now : ℚ) : Option (Command α κ (w.slices a).width × ℚ) → Vectors α (w.slices a).width
  | none => hold.read (w.slices a)
  | some (command, at_) => if expired w at_ now then command.vectors.limp else command.vectors

/-- the deadman of `a` has expired -/
def Silent (s : Sys ι α κ π w) (now : ℚ) (a : ι) : Prop := ∃ command last, s.wrote a = some (command, last) ∧ expired w last now = true

/-- every slice of `given`, which the backend is stepped with, is its actor's -/
structure Undisturbed (hold : Vectors α n) (wrote : (a : ι) → Option (Command α κ (w.slices a).width × ℚ))
    (command : Command α κ (w.slices host).width) (now : ℚ) (given : WorldCommand α κ π n) : Prop where
  own : given.vectors.read (w.slices host) = command.vectors
  others : ∀ a, a ≠ host → given.vectors.read (w.slices a) = standing hold a now (wrote a)

/-! ## deadmans -/

theorem expired_self (now : ℚ) : expired w now now = false := by
  have h := w.idlePos
  unfold expired
  rw [Bool.and_eq_false_iff, decide_eq_false_iff_not, decide_eq_false_iff_not]
  right
  linarith

/-- a deadman that has expired stays expired -/
theorem expired_later {last t now : ℚ} (hle : t ≤ now) (h : expired w last t = true) : expired w last now = true := by
  unfold expired at *
  rw [Bool.and_eq_true_iff, decide_eq_true_eq, decide_eq_true_eq] at *
  exact ⟨h.1, h.2.trans_le (sub_le_sub_right hle _)⟩

theorem not_expired_zero (now : ℚ) : expired w 0 now = false := by
  unfold expired
  rw [Bool.and_eq_false_iff, decide_eq_false_iff_not]
  exact .inl (lt_irrefl 0)

/-- the time that the deadman of a slice counts from -/
def heardAt {a : ι} (last : Option (Command α κ (w.slices a).width × ℚ)) : ℚ := (last.map Prod.snd).getD 0

/-- a slice as it stood at `t`, once the deadman is checked at `now` -/
theorem standing_later (hold : Vectors α n) (a : ι) (last : Option (Command α κ (w.slices a).width × ℚ)) {t now : ℚ} (hle : t ≤ now) :
    (if expired w (heardAt last) now = true then (standing hold a t last).limp else standing hold a t last) = standing hold a now last := by
  cases last with
  | none =>
    rw [show heardAt (none : Option (Command α κ (w.slices a).width × ℚ)) = 0 from rfl, not_expired_zero, if_neg (by decide)]
    rfl
  | some l =>
    obtain ⟨command, last⟩ := l
    show (if expired w last now = true then (if expired w last t = true then command.vectors.limp else command.vectors).limp
      else if expired w last t = true then command.vectors.limp else command.vectors)
        = if expired w last now = true then command.vectors.limp else command.vectors
    by_cases hnow : expired w last now = true
    · rw [if_pos hnow, if_pos hnow]
      split_ifs <;> rfl
    · rw [if_neg hnow, if_neg hnow, if_neg fun ht => hnow (expired_later hle ht)]

theorem deadman_times (now : ℚ) (c : SceneCore ι α κ π n) (a : ι) : (c.deadman w now a).lastCmdTime = c.lastCmdTime := by
  unfold SceneCore.deadman
  split_ifs <;> rfl

theorem deadman_stall (now : ℚ) (c : SceneCore ι α κ π n) (a : ι) : (c.deadman w now a).stall = c.stall := by
  unfold SceneCore.deadman
  split_ifs <;> rfl

theorem deadman_read (now : ℚ) (c : SceneCore ι α κ π n) (a b : ι) :
    (c.deadman w now a).command.vectors.read (w.slices b) =
      if b = a ∧ expired w (c.lastCmdTime b) now = true then (c.command.vectors.read (w.slices b)).limp
      else c.command.vectors.read (w.slices b) := by
  unfold SceneCore.deadman
  by_cases he : expired w (c.lastCmdTime a) now = true
  · rw [if_pos he]
    show (c.command.vectors.zero (w.slices a)).read (w.slices b) = _
    by_cases hb : b = a
    · subst hb
      rw [if_pos ⟨rfl, he⟩]
      exact Vectors.read_zero _ _
    · rw [if_neg (not_and_of_not_left _ hb)]
      exact Vectors.read_zero_of_apart (w.apart a b (Ne.symm hb)) _
  · rw [if_neg he, if_neg]
    rintro ⟨rfl, hb⟩
    exact he hb

/-- a slice is zeroed once, whichever of two deadmans does it -/
theorem limp_once {m : ℕ} (p q r : Prop) [Decidable p] [Decidable q] [Decidable r] (v : Vectors α m) :
    (if q ∧ r then (if p ∧ r then v.limp else v).limp else if p ∧ r then v.limp else v) = if (p ∨ q) ∧ r then v.limp else v := by
  by_cases hp : p <;> by_cases hq : q <;> by_cases hr : r <;> simp [hp, hq, hr]

/-- **What the deadmans of a tick change**, and that they clear the Cartesian law of the world. -/
theorem deadmans (now : ℚ) (l : List ι) (c : SceneCore ι α κ π n) :
    let c' := l.foldl (SceneCore.deadman w now) c
    c'.lastCmdTime = c.lastCmdTime ∧ c'.stall = c.stall ∧
    (∀ b, c'.command.vectors.read (w.slices b) =
      if b ∈ l ∧ expired w (c.lastCmdTime b) now = true then (c.command.vectors.read (w.slices b)).limp
      else c.command.vectors.read (w.slices b)) ∧
    ((∃ a ∈ l, expired w (c.lastCmdTime a) now = true) → c'.command.cartesian = none) ∧
    ((∀ a ∈ l, expired w (c.lastCmdTime a) now = false) → c' = c) := by
  induction l generalizing c with
  | nil => exact ⟨rfl, rfl, fun b => by rw [if_neg (by simp)]; rfl, fun ⟨a, ha, _⟩ => by simp at ha, fun _ => rfl⟩
  | cons a l ih =>
    obtain ⟨htimes, hstall, hread, hnone, hsame⟩ := ih (c.deadman w now a)
    rw [deadman_times] at htimes hread hnone hsame
    rw [List.foldl_cons]
    refine ⟨htimes, hstall.trans (deadman_stall now c a), ?_, ?_, ?_⟩
    · intro b
      rw [hread b, deadman_read]
      simp only [List.mem_cons]
      exact limp_once (b = a) (b ∈ l) (expired w (c.lastCmdTime b) now = true) _
    · rintro ⟨b, hb, he⟩
      by_cases hl : ∃ a ∈ l, expired w (c.lastCmdTime a) now = true
      · exact hnone hl
      · -- nobody behind `a` is silent: it is `a`, and nothing writes the law after it
        have hrest : ∀ a' ∈ l, expired w (c.lastCmdTime a') now = false := fun a' ha' =>
          Bool.eq_false_iff.mpr fun h => hl ⟨a', ha', h⟩
        rcases List.mem_cons.mp hb with rfl | hb
        · show (l.foldl (SceneCore.deadman w now) (c.deadman w now b)).command.cartesian = none
          rw [hsame hrest]
          unfold SceneCore.deadman
          rw [if_pos he]
          rfl
        · exact absurd ⟨b, hb, he⟩ hl
    · intro h
      have ha : c.deadman w now a = c := by
        unfold SceneCore.deadman
        rw [h a List.mem_cons_self, if_neg (by decide)]
      rw [hsame fun a' ha' => h a' (List.mem_cons_of_mem a ha'), ha]

/-! ## the invariant of the step calls -/

/-- every slice is as it stood, by its actor's last write, at some time up to now -/
structure Kept (hold : Vectors α n) (s : Sys ι α κ π w) : Prop where
  heard : ∀ a, s.shared.core.lastCmdTime a = heardAt (s.wrote a)
  listening : s.shared.core.stall = 0
  slice : ∀ a, ∃ t ≤ s.clock, s.shared.core.command.vectors.read (w.slices a) = standing hold a t (s.wrote a)

variable {hold : Vectors α n} {s : Sys ι α κ π w}

theorem Kept.init (state : Motor α n) (t₀ : ℚ) : Kept (spawnHold state) (.init state t₀ : Sys ι α κ π w) :=
  ⟨fun _ => rfl, rfl, fun _ => ⟨t₀, le_refl t₀, rfl⟩⟩

theorem Kept.later (h : Kept hold s) {now : ℚ} (hle : s.clock ≤ now) : Kept hold { s with clock := now } :=
  ⟨h.heard, h.listening, fun a => (h.slice a).imp fun _ ht => ⟨ht.1.trans hle, ht.2⟩⟩

theorem Kept.write (h : Kept hold s) (actor : ι) (command : Command α κ (w.slices actor).width) :
    Kept hold (s.write actor command s.clock) := by
  refine ⟨?_, h.listening, ?_⟩
  · intro a
    show Function.update s.shared.core.lastCmdTime actor s.clock a = heardAt (Function.update s.wrote actor _ a)
    by_cases ha : a = actor
    · subst ha
      rw [Function.update_self, Function.update_self]
      rfl
    · rw [Function.update_of_ne ha, Function.update_of_ne ha]
      exact h.heard a
  · intro a
    show ∃ t ≤ s.clock, (s.shared.core.command.vectors.assign (w.slices actor) command.vectors).read (w.slices a)
      = standing hold a t (Function.update s.wrote actor _ a)
    by_cases ha : a = actor
    · subst ha
      refine ⟨s.clock, le_refl _, ?_⟩
      rw [Function.update_self, Vectors.read_assign]
      show command.vectors = if expired w s.clock s.clock = true then _ else _
      rw [expired_self, if_neg (by decide)]
    · obtain ⟨t, hle, ht⟩ := h.slice a
      refine ⟨t, hle, ?_⟩
      rw [Function.update_of_ne ha, Vectors.read_assign_of_apart (w.apart actor a (Ne.symm ha))]
      exact ht

/-- **A tick brings every slice up to date.** -/
theorem Kept.ticked (h : Kept hold s) :
    let c := s.shared.core.tick w s.clock
    (∀ a, c.lastCmdTime a = heardAt (s.wrote a)) ∧ c.stall = 0 ∧
    (∀ a, c.command.vectors.read (w.slices a) = standing hold a s.clock (s.wrote a)) ∧
    ((∃ a, Silent s s.clock a) → c.command.cartesian = none) ∧
    ((∀ a, ¬ Silent s s.clock a) → c.command.cartesian = s.shared.core.command.cartesian) := by
  have hcredit : s.shared.core.credit = s.shared.core := by
    unfold SceneCore.credit
    rw [h.listening, if_neg (lt_irrefl 0)]
  have hsilent : ∀ a, Silent s s.clock a ↔ expired w (heardAt (s.wrote a)) s.clock = true := by
    intro a
    unfold Silent
    cases hw : s.wrote a with
    | none =>
      rw [show heardAt (none : Option (Command α κ (w.slices a).width × ℚ)) = 0 from rfl, not_expired_zero]
      exact ⟨fun ⟨_, _, hc, _⟩ => (Option.some_ne_none _ hc.symm).elim, fun hc => Bool.noConfusion hc⟩
    | some l =>
      constructor
      · rintro ⟨command, last, hc, he⟩
        rw [Option.some.inj hc]
        exact he
      · exact fun he => ⟨l.1, l.2, rfl, he⟩
  unfold SceneCore.tick
  rw [hcredit]
  obtain ⟨htimes, hstall, hread, hnone, hsame⟩ := deadmans s.clock w.actors s.shared.core
  refine ⟨fun a => (congrFun htimes a).trans (h.heard a), hstall.trans h.listening, ?_, ?_, ?_⟩
  · intro a
    obtain ⟨t, hle, ht⟩ := h.slice a
    rw [hread a, ht, h.heard a, ← standing_later hold a (s.wrote a) hle]
    simp only [w.listed a, true_and]
  · rintro ⟨a, ha⟩
    exact hnone ⟨a, w.listed a, (h.heard a).symm ▸ (hsilent a).mp ha⟩
  · intro hall
    rw [hsame fun a _ => Bool.eq_false_iff.mpr fun he => hall a ((hsilent a).mpr (h.heard a ▸ he))]

theorem Kept.tick (h : Kept hold s) (returned : Option (Motor α n)) : Kept hold (s.tick s.clock returned) := by
  obtain ⟨hheard, hstall, hread, -, -⟩ := h.ticked
  cases returned with
  | none => exact ⟨hheard, hstall, fun a => ⟨s.clock, le_refl _, hread a⟩⟩
  | some state => exact ⟨hheard, hstall, fun a => ⟨s.clock, le_refl _, hread a⟩⟩

theorem Kept.plants (h : Kept hold s) (plants : ι → ScenePlant) : Kept hold { s with plants := plants } := ⟨h.heard, h.listening, h.slice⟩

theorem Kept.cohostStep (h : Kept hold s) (actor : ι) (command : Command α κ (w.slices actor).width) :
    Kept hold (s.cohostStep actor command s.clock).1 := by
  unfold Sys.cohostStep
  dsimp only
  split_ifs
  · exact h
  · exact h.plants _
  · exact h.plants _
  · exact (h.plants _).write actor _

theorem hostStep_fst (s : Sys ι α κ π w) (command : Command α κ (w.slices host).width) (now : ℚ) (returned : Option (Motor α n)) :
    (s.hostStep host command now returned).1 = (s.write host command now).tick now returned := by
  unfold Sys.hostStep
  cases returned <;> rfl

theorem Kept.call (h : Kept hold s) {e : StepCall α κ w host} (hle : s.clock ≤ e.now) : Kept hold (s.call host e) := by
  have hnow := h.later hle
  cases e with
  | host command now returned =>
    show Kept hold (Sys.hostStep host { s with clock := now } command now returned).1
    rw [hostStep_fst]
    exact (hnow.write host command).tick returned
  | cohost actor other command now => exact hnow.cohostStep actor command

/-! ## every run -/

/-- the times of the calls do not decrease -/
def InOrder (s : Sys ι α κ π w) (e : StepCall α κ w host) : Prop := s.clock ≤ e.now

instance (s : Sys ι α κ π w) (e : StepCall α κ w host) : Decidable (InOrder s e) := inferInstanceAs (Decidable (_ ≤ _))

/-- a host step with `command` steps the backend once, and its slices are the actors'; the Cartesian law is the host's, as long as no
other actor is silent -/
def HostStepsSlices (hold : Vectors α n) (s : Sys ι α κ π w) (command : Command α κ (w.slices host).width) (now : ℚ)
    (after : Sys ι α κ π w) : Prop :=
  ∃ given, after.stepped = s.stepped ++ [given] ∧ Undisturbed hold s.wrote command now given ∧
    ((∀ a, a ≠ host → ¬ Silent s now a) → given.cartesian = command.cartesian) ∧
    ((∃ a, a ≠ host ∧ Silent s now a) → given.cartesian = none)

theorem Kept.hostStep (h : Kept hold s) (command : Command α κ (w.slices host).width) (returned : Option (Motor α n)) :
    HostStepsSlices hold s command s.clock (s.hostStep host command s.clock returned).1 := by
  obtain ⟨-, -, hread, hnone, hsame⟩ := (h.write host command).ticked
  have hwrote : (s.write host command s.clock).wrote host = some (command, s.clock) := Function.update_self _ _ _
  have hothers : ∀ a, a ≠ host → (s.write host command s.clock).wrote a = s.wrote a := fun a ha => Function.update_of_ne ha _ _
  have hhost : ¬ Silent (s.write host command s.clock) s.clock host := by
    rintro ⟨c, t, hc, he⟩
    rw [hwrote] at hc
    obtain ⟨-, rfl⟩ := Prod.mk.inj (Option.some.inj hc)
    rw [expired_self] at he
    exact Bool.noConfusion he
  have hsilent : ∀ a, a ≠ host → (Silent (s.write host command s.clock) s.clock a ↔ Silent s s.clock a) := by
    intro a ha
    unfold Silent
    rw [hothers a ha]
  rw [hostStep_fst]
  refine ⟨((s.write host command s.clock).shared.core.tick w s.clock).command, ?_, ⟨?_, ?_⟩, ?_, ?_⟩
  · cases returned <;> rfl
  · refine (hread host).trans ?_
    rw [hwrote]
    show (if expired w s.clock s.clock = true then _ else _) = _
    rw [expired_self, if_neg (by decide)]
  · intro a ha
    refine (hread a).trans ?_
    rw [hothers a ha]
    rfl
  · intro hall
    refine hsame fun a => ?_
    by_cases ha : a = host
    · exact ha ▸ hhost
    · exact fun hs => hall a ha ((hsilent a ha).mp hs)
  · rintro ⟨a, ha, hs⟩
    exact hnone ⟨a, (hsilent a ha).mpr hs⟩

/-- **In every host step of every run the backend is stepped with the slices as their actors wrote them**, and with the Cartesian law of
the host unless the deadman of another actor has expired: then there is no Cartesian law. -/
theorem host_steps_the_slices (state : Motor α n) (t₀ : ℚ) (es : List (StepCall α κ w host)) (command : Command α κ (w.slices host).width)
    (now : ℚ) (returned : Option (Motor α n))
    (h : Run.Along (Sys.call host) InOrder (.init state t₀ : Sys ι α κ π w) (es ++ [.host command now returned])) :
    HostStepsSlices (spawnHold state) (Run.run (Sys.call host) (.init state t₀ : Sys ι α κ π w) es) command now
      (Run.run (Sys.call host) (.init state t₀ : Sys ι α κ π w) (es ++ [.host command now returned])) := by
  have hkept : Kept (spawnHold state) (Run.run (Sys.call host) (.init state t₀ : Sys ι α κ π w) es) :=
    Run.invariant (Kept.init state t₀) (fun s e hle hs => hs.call hle) h.init
  rw [Run.run_snoc]
  exact (hkept.later h.last).hostStep command returned

end

/-! ## the Cartesian law is shared -/

/-- two actors with one joint each -/
def pair : World Bool 2 where
  slices a := if a then ⟨0, 1, by decide⟩ else ⟨1, 1, by decide⟩
  apart := by
    intro a b hne
    cases a <;> cases b
    · exact absurd rfl hne
    · exact .inr (by decide)
    · exact .inl (by decide)
    · exact absurd rfl hne
  actors := [true, false]
  listed a := by cases a <;> decide
  idleTimeout := 1/10
  idlePos := by norm_num
  period := 1/250

def stiff (law : Option Unit) (a : Bool) : Command ℚ Unit (pair.slices a).width :=
  ⟨⟨fun _ => 1, fun _ => 0, fun _ => 0, fun _ => 100, fun _ => 5⟩, law⟩

def rest : Motor ℚ 2 := ⟨fun _ => 0, fun _ => 0⟩

/-- the co-host commands once, and falls silent while the host runs a Cartesian law -/
def quietPartner : List (StepCall ℚ Unit pair true) := [.cohost false (by decide) (stiff none false) 1, .host (stiff (some ()) true) 1 (some rest)]

theorem host_steps_the_slices_pair :
    HostStepsSlices (spawnHold rest) (Run.run (Sys.call true) (.init rest 0 : Sys Bool ℚ Unit Unit pair) quietPartner) (stiff (some ()) true) 2
      (Run.run (Sys.call true) (.init rest 0 : Sys Bool ℚ Unit Unit pair) (quietPartner ++ [.host (stiff (some ()) true) 2 (some rest)])) :=
  host_steps_the_slices rest 0 quietPartner (stiff (some ()) true) 2 (some rest) (by decide +kernel)

/-- the law of the host does not reach the backend in every host step -/
theorem silent_partner_clears_law : ¬ ∀ (es : List (StepCall ℚ Unit pair true)) (command : Command ℚ Unit (pair.slices true).width) (now : ℚ)
    (returned : Option (Motor ℚ 2)),
    Run.Along (Sys.call true) InOrder (.init rest 0 : Sys Bool ℚ Unit Unit pair) (es ++ [.host command now returned]) →
    ∃ given, (Run.run (Sys.call true) (.init rest 0 : Sys Bool ℚ Unit Unit pair) (es ++ [.host command now returned])).stepped
        = (Run.run (Sys.call true) (.init rest 0 : Sys Bool ℚ Unit Unit pair) es).stepped ++ [given] ∧
      given.cartesian = command.cartesian := by
  intro h
  obtain ⟨given, hstepped, hlaw⟩ := h quietPartner (stiff (some ()) true) 2 (some rest) (by decide +kernel)
  have hcleared : (Run.run (Sys.call true) (.init rest 0 : Sys Bool ℚ Unit Unit pair)
      (quietPartner ++ [.host (stiff (some ()) true) 2 (some rest)])).stepped.map (fun g => g.cartesian) = [some (), none] := by
    decide +kernel
  have hbefore : (Run.run (Sys.call true) (.init rest 0 : Sys Bool ℚ Unit Unit pair) quietPartner).stepped.map (fun g => g.cartesian)
      = [some ()] := by decide +kernel
  rw [hstepped, List.map_append, hbefore, List.map_singleton, hlaw] at hcleared
  exact absurd hcleared (by decide)

end ArmControl.Plants.Scene
