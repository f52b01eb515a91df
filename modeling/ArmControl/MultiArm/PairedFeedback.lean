import Mathlib.Data.List.Dedup
import Mathlib.Tactic.Linarith
import Mathlib.Tactic.NormNum
import Mathlib.Tactic.SplitIfs
import ArmControl.Lib.Dict
import ArmControl.Lib.Fallible
import ArmControl.Lib.Vectors

/-!
# Two arms' positions at one stamp (`multi_arm/feedback.py`, `multi_arm/supervised_feedback.py`)

* `alignFeedback`        the newest packets, the target stamp, a bracket for each arm, the interpolation;
* `alignArms`            the same over two supervisors' replies;
* `scan`                 the reverse scan of one history;
* `Bracketed`            what a returned position is made of;
* `Steady`               a history that cannot be refused;
* `aligned_feedback`     a return interpolates a tight bracket, steady histories on one clock return;
* `alignArms_one_clock`  a return through supervisors is on one attested clock.

Numbers are exact.  A packet keeps only the fields read here.  `hex` is `int(text, 16)`, `none` where it raises.
-/

namespace ArmControl.MultiArm.Feedback

/-- a packet of the arm's RT state -/
structure State where
  n : ℕ
  stateSeq : ℤ
  tMonoNs : ℤ
  sessionId : ℤ
  armEpoch : ℤ
  stopEpoch : ℤ
  armed : Bool
  faulted : Bool
  q : List Value
  dq : List Value
  deriving DecidableEq

/-- what `motor_health` says of the authority -/
structure Authority where
  sessionId : String
  armEpoch : ℤ

structure Link where
  clockDomain : Option (List String)
  host : String
  motorHealth : Authority

/-- packets with their time of arrival, the newest last -/
abbrev History := List (State × Value)

inductive AlignError where
  | valueError (text : String)
  | keyError (arm : String)
  /-- `FeedbackGap` for the newest packets -/
  | skew (latestSkewS limitS : ℚ) (targetTMonoNs : ℤ)
  /-- `FeedbackGap` for one arm's bracket -/
  | interval (armId : String) (intervalS limitS : ℚ) (targetTMonoNs : ℤ) (before after : State)
  deriving DecidableEq

/-- what is reported of one arm's bracket -/
structure Bracket where
  beforeTMonoNs : ℤ
  afterTMonoNs : ℤ
  beforeSeq : ℤ
  afterSeq : ℤ
  fraction : ℚ
  qBefore : List Value
  qAfter : List Value
  q : List Value

structure Report where
  rtHost : String
  clockDomain : String
  tMonoNs : ℤ
  latestSkewS : ℚ
  brackets : List (String × Bracket)
  receivedAt : Value

/-! ## the alignment -/

def checkDomains (links : Dict String Link) : Except AlignError Unit :=
  let domains := links.entries.map fun e => e.2.clockDomain
  if domains.any Option.isSome then
    if domains.any Option.isNone then
      .error (.valueError "paired feedback: RT clock domain is attested on one arm only")
    else if domains.dedup.length ≠ 1 then
      .error (.valueError "paired feedback requires one RT clock domain (host and boot)")
    else .ok ()
  else if (links.entries.map fun e => e.2.host).dedup.length ≠ 1 then
    .error (.valueError "paired feedback requires one RT host clock")
  else .ok ()

def epoch (s : State) : ℤ × ℤ × ℤ := (s.sessionId, s.armEpoch, s.stopEpoch)

def position (a : String) (s : State) : Except AlignError (List Value) :=
  if [s.q, s.dq].any fun v => v.length != s.n || !Vec.isFinite v then
    .error (.valueError (a ++ ": paired feedback contains invalid joints"))
  else .ok s.q

/-- `0 <= now - received <= max_age_s` -/
def fresh (now : Value) (maxAgeS : ℚ) (received : Value) : Bool :=
  (Value.fin 0).le (now - received) && (now - received).le (.fin maxAgeS)

/-- the checks of the newest packet -/
def checkLatest (hex : String → Option ℤ) (links : Dict String Link) (now : Value) (maxAgeS : ℚ) (a : String)
    (history : History) : Except AlignError State :=
  match history.getLast? with
  | none => .error (.valueError (a ++ ": paired feedback history missing"))
  | some (state, received) =>
    match links.get a with
    | none => .error (.keyError a)
    | some link =>
      match hex link.motorHealth.sessionId with
      | none => .error (.valueError ("invalid literal for int() with base 16: '" ++ link.motorHealth.sessionId ++ "'"))
      | some session =>
        if state.sessionId ≠ session ∨ (state.armed = true ∧ state.armEpoch ≠ link.motorHealth.armEpoch) then
          .error (.valueError (a ++ ": paired feedback authority changed"))
        else if received.isFinite = false ∨ fresh now maxAgeS received = false then
          .error (.valueError (a ++ ": paired feedback stale"))
        else if state.tMonoNs ≤ 0 ∨ state.faulted = true then
          .error (.valueError (a ++ ": paired feedback timestamp invalid or plant faulted"))
        else if ∃ e ∈ history.dropLast.getLast?, e.1.tMonoNs ≥ state.tMonoNs then
          .error (.valueError (a ++ ": paired feedback timestamps are not increasing"))
        else do
          -- a rejected newest packet is not hidden behind the history
          let _ ← position a state
          .ok state

/-- the packets from the newest back, with the last one at or after the target -/
def scan (now : Value) (maxAgeS : ℚ) (a : String) (current : State) (target : ℤ) :
    List (State × Value) → Option State → Except AlignError (Option State × Option State)
  | [], after => .ok (none, after)
  | (state, received) :: older, after =>
    if epoch state ≠ epoch current ∨ state.faulted = true then .ok (none, after)
    else if fresh now maxAgeS received = false then .ok (none, after)
    else if ∃ s ∈ after, state.tMonoNs ≥ s.tMonoNs then
      .error (.valueError (a ++ ": paired feedback timestamps are not increasing"))
    else
      let after' := if state.tMonoNs ≥ target then some state else after
      if state.tMonoNs ≤ target then .ok (some state, after') else scan now maxAgeS a current target older after'

/-- nanoseconds as seconds -/
def seconds (t : ℤ) : ℚ := t * (1 / 10^9)

/-- one-dimensional arrays put together: a single entry goes with every other -/
def broadcast {α β γ : Type} (f : α → β → γ) (x : List α) (y : List β) : Option (List γ) :=
  if x.length = y.length then some (x.zipWith f y)
  else match x, y with
    | [a], y => some (y.map (f a))
    | x, [b] => some (x.map (f · b))
    | _, _ => none

/-- where the target lies between the two packets -/
def fraction (target : ℤ) (before after : State) : ℚ :=
  if seconds (after.tMonoNs - before.tMonoNs) = 0 then 0
  else ((target - before.tMonoNs : ℤ) : ℚ) / ((after.tMonoNs - before.tMonoNs : ℤ) : ℚ)

/-- the position between the two packets -/
def interpolate (a : String) (target : ℤ) (before after : State) : Except AlignError Bracket := do
  let alpha := fraction target before after
  let q₀ ← position a before
  let q₁ ← position a after
  match broadcast (· + ·) (Vec.scale (.fin (1 - alpha)) q₀) (Vec.scale (.fin alpha) q₁) with
  | none =>
    .error (.valueError ("operands could not be broadcast together with shapes (" ++ toString q₀.length ++ ",) (" ++
      toString q₁.length ++ ",) "))
  | some q => .ok ⟨before.tMonoNs, after.tMonoNs, before.stateSeq, after.stateSeq, alpha, q₀, q₁, q⟩

/-- the bracket of one arm -/
def bracket (now : Value) (maxAgeS maxIntervalS : ℚ) (target : ℤ) (a : String) (current : State) (history : History) :
    Except AlignError Bracket := do
  match ← scan now maxAgeS a current target history.reverse none with
  | (some before, some after) =>
    if before.tMonoNs ≤ 0 then .error (.valueError (a ++ ": paired feedback cannot bracket common time"))
    else
      let interval := seconds (after.tMonoNs - before.tMonoNs)
      if interval > maxIntervalS then .error (.interval a interval maxIntervalS target before after)
      else interpolate a target before after
  | _ => .error (.valueError (a ++ ": paired feedback cannot bracket common time"))

/-- `min` and `max` of a row that is not empty -/
def least (l : List ℤ) : ℤ := l.min?.getD 0
def greatest (l : List ℤ) : ℤ := l.max?.getD 0

/-- the oldest of the newest arrivals -/
def receivedAt (histories : Dict String History) : Value :=
  match histories.entries.filterMap fun e => e.2.getLast?.map Prod.snd with
  | [] => .nan
  | t :: ts => ts.foldl Value.pyMin t

def clockName (links : Dict String Link) : String :=
  match links.entries.head?.bind fun e => e.2.clockDomain with
  | none => "unattested"
  | some parts => ":".intercalate parts

/-- an arm with its newest packet -/
def latestOf (hex : String → Option ℤ) (links : Dict String Link) (now : Value) (maxAgeS : ℚ) (e : String × History) :
    Except AlignError (String × State × History) := do
  let state ← checkLatest hex links now maxAgeS e.1 e.2
  .ok (e.1, state, e.2)

/-- an arm with its bracket -/
def bracketOf (now : Value) (maxAgeS maxIntervalS : ℚ) (target : ℤ) (l : String × State × History) :
    Except AlignError (String × Bracket) := do
  let b ← bracket now maxAgeS maxIntervalS target l.1 l.2.1 l.2.2
  .ok (l.1, b)

/-- the arms' positions at the smaller of the newest stamps -/
def alignFeedback (hex : String → Option ℤ) (links : Dict String Link) (histories : Dict String History) (now : Value)
    (maxAgeS maxIntervalS : ℚ) : Except AlignError (List (String × List Value) × Report) := do
  if links.entries.length ≠ 2 ∨ ¬ (links.keys ⊆ histories.keys ∧ histories.keys ⊆ links.keys) then
    .error (.valueError "paired feedback requires both arms")
  else
    checkDomains links
    let latest ← histories.entries.mapM (latestOf hex links now maxAgeS)
    let stamps := latest.map fun l => l.2.1.tMonoNs
    let target := least stamps
    let skew := seconds (greatest stamps - target)
    if skew > maxIntervalS then .error (.skew skew maxIntervalS target)
    else
      let brackets ← latest.mapM (bracketOf now maxAgeS maxIntervalS target)
      .ok (brackets.map fun b => (b.1, b.2.q),
        ⟨(links.entries.head?.map fun e => e.2.host).getD "", clockName links, target, skew, brackets, receivedAt histories⟩)

/-! ## what a position is made of -/

/-- received at most `maxAgeS` before `now` -/
def Recent (now : Value) (maxAgeS : ℚ) (received : Value) : Prop :=
  ∃ n r : ℚ, now = .fin n ∧ received = .fin r ∧ 0 ≤ n - r ∧ n - r ≤ maxAgeS

/-- a packet of the newest one's session and epochs, from a healthy plant -/
structure Usable (now : Value) (maxAgeS : ℚ) (newest : State) (e : State × Value) : Prop where
  session : e.1.sessionId = newest.sessionId
  arm : e.1.armEpoch = newest.armEpoch
  stop : e.1.stopEpoch = newest.stopEpoch
  healthy : e.1.faulted = false
  recent : Recent now maxAgeS e.2

/-- one packet, or two in a row -/
def Adjacent (history : History) (before after : State × Value) : Prop :=
  (before = after ∧ before ∈ history) ∨ ∃ l r, history = l ++ before :: after :: r

/-- the point between two numbers at the target -/
def between (target t₀ t₁ : ℤ) (x₀ x₁ : ℚ) : ℚ := x₀ + ((target - t₀ : ℤ) : ℚ) / ((t₁ - t₀ : ℤ) : ℚ) * (x₁ - x₀)

/-- a row is the interpolation of an adjacent pair of packets of the history -/
structure Bracketed (now : Value) (maxAgeS maxIntervalS : ℚ) (target : ℤ) (history : History) (newest : State × Value)
    (before after : State × Value) (row : List Value) : Prop where
  ends : history.getLast? = some newest
  adjacent : Adjacent history before after
  usable : ∀ e ∈ [before, after], Usable now maxAgeS newest.1 e
  positive : 0 < before.1.tMonoNs
  reached : before.1.tMonoNs ≤ target ∧ target ≤ after.1.tMonoNs
  tight : seconds (after.1.tMonoNs - before.1.tMonoNs) ≤ maxIntervalS
  inside : ∃ p₀ p₁ p, before.1.q = Vec.ofRat p₀ ∧ after.1.q = Vec.ofRat p₁ ∧
    broadcast (between target before.1.tMonoNs after.1.tMonoNs) p₀ p₁ = some p ∧ row = Vec.ofRat p

section
variable {now : Value} {maxAgeS maxIntervalS : ℚ} {a : String} {current : State} {target : ℤ}

theorem fresh_iff {received : Value} : fresh now maxAgeS received = true ↔ Recent now maxAgeS received := by
  unfold fresh
  rw [Bool.and_eq_true]
  constructor
  · rintro ⟨hlow, hhigh⟩
    cases hage : now - received with
    | nan =>
      rw [hage] at hlow
      cases hlow
    | inf neg =>
      rw [hage] at hlow hhigh
      cases neg
      · cases hhigh
      · cases hlow
    | fin age =>
      obtain ⟨n, m, rfl, hm, hsum⟩ := Value.eq_fin_of_add (y := -received) hage
      rw [hage] at hlow hhigh
      have hreceived : received = .fin (-m) := by
        cases received with
        | nan => cases hm
        | inf neg => cases hm
        | fin r =>
          obtain rfl := Value.fin.inj hm
          rw [neg_neg]
      exact ⟨n, -m, rfl, hreceived, by simpa [hsum] using hlow, by simpa [hsum] using hhigh⟩
  · rintro ⟨n, r, rfl, rfl, hlow, hhigh⟩
    rw [Value.fin_sub, Value.le_fin, Value.le_fin]
    exact ⟨decide_eq_true hlow, decide_eq_true hhigh⟩

theorem epoch_eq_iff {s t : State} :
    epoch s = epoch t ↔ s.sessionId = t.sessionId ∧ s.armEpoch = t.armEpoch ∧ s.stopEpoch = t.stopEpoch := by
  unfold epoch
  rw [Prod.mk.injEq, Prod.mk.injEq]

theorem usable_iff {e : State × Value} : Usable now maxAgeS current e ↔
    ¬ (epoch e.1 ≠ epoch current ∨ e.1.faulted = true) ∧ ¬ fresh now maxAgeS e.2 = false := by
  rw [not_or, not_not, epoch_eq_iff, Bool.not_eq_true, Bool.not_eq_false, fresh_iff]
  exact ⟨fun h => ⟨⟨⟨h.session, h.arm, h.stop⟩, h.healthy⟩, h.recent⟩, fun h => ⟨h.1.1.1, h.1.1.2.1, h.1.1.2.2, h.1.2, h.2⟩⟩

/-! ## the reverse scan -/

/-- a scan that finds both ends has gone over usable packets after the target, down to the first at or before it -/
theorem scan_eq_ok {l : List (State × Value)} {after : Option State} {b s : State}
    (hafter : ∀ s ∈ after, target < s.tMonoNs)
    (h : scan now maxAgeS a current target l after = .ok (some b, some s)) :
    ∃ newer rb rest, l = newer ++ (b, rb) :: rest ∧ (∀ e ∈ newer ++ [(b, rb)], Usable now maxAgeS current e) ∧
      b.tMonoNs ≤ target ∧
        ((s = b ∧ b.tMonoNs = target) ∨
          (target < s.tMonoNs ∧ ((newer = [] ∧ after = some s) ∨ ∃ newer' rs, newer = newer' ++ [(s, rs)]))) := by
  induction l generalizing after with
  | nil => cases h
  | cons e older ih =>
    obtain ⟨state, received⟩ := e
    unfold scan at h
    by_cases hgone : epoch state ≠ epoch current ∨ state.faulted = true
    · rw [if_pos hgone] at h
      cases h
    by_cases hstale : fresh now maxAgeS received = false
    · rw [if_neg hgone, if_pos hstale] at h
      cases h
    by_cases hback : ∃ s ∈ after, state.tMonoNs ≥ s.tMonoNs
    · rw [if_neg hgone, if_neg hstale, if_pos hback] at h
      cases h
    rw [if_neg hgone, if_neg hstale, if_neg hback] at h
    have husable : Usable now maxAgeS current (state, received) := usable_iff.mpr ⟨hgone, hstale⟩
    dsimp only at h
    rcases lt_or_ge target state.tMonoNs with hlater | hpast
    · rw [if_pos hlater.le, if_neg (not_le.mpr hlater)] at h
      obtain ⟨newer, rb, rest, rfl, hall, hle, hends⟩ := ih (fun s hs => Option.some.inj hs ▸ hlater) h
      refine ⟨(state, received) :: newer, rb, rest, rfl, ?_, hle, hends.imp_right fun ⟨hlt, hwhere⟩ => ⟨hlt, .inr ?_⟩⟩
      · exact List.forall_mem_cons.mpr ⟨husable, hall⟩
      · rcases hwhere with ⟨rfl, hs⟩ | ⟨newer', rs, rfl⟩
        · obtain rfl := Option.some.inj hs
          exact ⟨[], received, rfl⟩
        · exact ⟨(state, received) :: newer', rs, rfl⟩
    · rw [if_pos hpast] at h
      obtain ⟨hb, hs⟩ := Prod.mk.inj (Except.ok.inj h)
      obtain rfl := Option.some.inj hb
      refine ⟨[], received, older, rfl, by simpa using husable, hpast, ?_⟩
      by_cases hat : state.tMonoNs ≥ target
      · rw [if_pos hat] at hs
        exact .inl ⟨(Option.some.inj hs).symm, le_antisymm hpast hat⟩
      · rw [if_neg hat] at hs
        exact .inr ⟨hafter s hs, .inl ⟨rfl, hs⟩⟩

/-- the two ends are one packet of the history, or two in a row -/
theorem scan_adjacent {history : History} {b s : State}
    (h : scan now maxAgeS a current target history.reverse none = .ok (some b, some s)) :
    ∃ rb rs, Adjacent history (b, rb) (s, rs) ∧ (∀ e ∈ [(b, rb), (s, rs)], Usable now maxAgeS current e) ∧
      b.tMonoNs ≤ target ∧ target ≤ s.tMonoNs := by
  obtain ⟨newer, rb, rest, hl, hall, hle, hends⟩ := scan_eq_ok (fun s hs => by cases hs) h
  have hhistory : history = rest.reverse ++ (b, rb) :: newer.reverse := by
    rw [← List.reverse_reverse history, hl]
    simp
  rcases hends with ⟨rfl, heq⟩ | ⟨hlt, ⟨-, hnone⟩ | ⟨newer', rs, rfl⟩⟩
  · have husable := hall (s, rb) (by simp)
    refine ⟨rb, rb, .inl ⟨rfl, ?_⟩, by simpa using husable, hle, heq.ge⟩
    rw [hhistory]
    simp
  · cases hnone
  · refine ⟨rb, rs, .inr ⟨rest.reverse, newer'.reverse, by simpa using hhistory⟩, ?_, hle, hlt.le⟩
    have hb := hall (b, rb) (by simp)
    have hs := hall (s, rs) (by simp)
    simpa using ⟨hb, hs⟩

/-- a scan down a history in order cannot fail once a packet is at or before the target -/
theorem scan_tightest {l : List (State × Value)} {after : Option State}
    (hdown : l.Pairwise fun x y => y.1.tMonoNs < x.1.tMonoNs) (husable : ∀ e ∈ l, Usable now maxAgeS current e)
    (hbelow : ∀ s ∈ after, ∀ e ∈ l, e.1.tMonoNs < s.tMonoNs) (hpast : ∃ e ∈ l, e.1.tMonoNs ≤ target)
    (hnext : after.isSome = true ∨ ∃ e ∈ l, target ≤ e.1.tMonoNs) :
    ∃ b s, scan now maxAgeS a current target l after = .ok (some b, some s) ∧
      (∀ e ∈ l, e.1.tMonoNs ≤ target → e.1.tMonoNs ≤ b.tMonoNs) ∧
      (∀ e ∈ l, target ≤ e.1.tMonoNs → s.tMonoNs ≤ e.1.tMonoNs) ∧ ∀ s' ∈ after, s.tMonoNs ≤ s'.tMonoNs := by
  induction l generalizing after with
  | nil =>
    obtain ⟨e, he, -⟩ := hpast
    cases he
  | cons e older ih =>
    obtain ⟨state, received⟩ := e
    obtain ⟨hfirst, hdown⟩ := List.pairwise_cons.mp hdown
    obtain ⟨hgood, husable⟩ := List.forall_mem_cons.mp husable
    obtain ⟨hgone, hstale⟩ := usable_iff.mp hgood
    have hback : ¬ ∃ s ∈ after, state.tMonoNs ≥ s.tMonoNs := by
      rintro ⟨s, hs, hge⟩
      exact absurd (hbelow s hs _ List.mem_cons_self) (not_lt.mpr hge)
    unfold scan
    rw [if_neg hgone, if_neg hstale, if_neg hback]
    dsimp only
    rcases lt_or_ge target state.tMonoNs with hlater | hle
    · rw [if_pos hlater.le, if_neg (not_le.mpr hlater)]
      have hpast' : ∃ e ∈ older, e.1.tMonoNs ≤ target := by
        obtain ⟨e, he, hle⟩ := hpast
        rcases List.mem_cons.mp he with rfl | he
        · exact absurd hle (not_le.mpr hlater)
        · exact ⟨e, he, hle⟩
      obtain ⟨b, s, hscan, hb, hs, hcap⟩ :=
        ih hdown husable (fun s hs e he => Option.some.inj hs ▸ hfirst e he) hpast' (.inl rfl)
      have htop : s.tMonoNs ≤ state.tMonoNs := hcap state rfl
      refine ⟨b, s, hscan, ?_, ?_, fun s' hs' => htop.trans (hbelow s' hs' _ List.mem_cons_self).le⟩
      · exact List.forall_mem_cons.mpr ⟨fun hle => absurd hle (not_le.mpr hlater), hb⟩
      · exact List.forall_mem_cons.mpr ⟨fun _ => htop, hs⟩
    · rw [if_pos hle]
      have hrest : ∀ e ∈ older, ¬ target ≤ e.1.tMonoNs := fun e he => not_le.mpr ((hfirst e he).trans_le hle)
      have holder : ∀ e ∈ older, e.1.tMonoNs ≤ state.tMonoNs := fun e he => (hfirst e he).le
      by_cases hat : state.tMonoNs ≥ target
      · rw [if_pos hat]
        refine ⟨state, state, rfl, List.forall_mem_cons.mpr ⟨fun _ => le_rfl, fun e he _ => holder e he⟩,
          List.forall_mem_cons.mpr ⟨fun _ => le_rfl, fun e he h => absurd h (hrest e he)⟩, ?_⟩
        exact fun s hs => (hbelow s hs _ List.mem_cons_self).le
      · rw [if_neg hat]
        have hnone : ¬ ∃ e ∈ (state, received) :: older, target ≤ e.1.tMonoNs := by
          rintro ⟨e, he, h⟩
          rcases List.mem_cons.mp he with rfl | he
          · exact hat h
          · exact hrest e he h
        obtain ⟨s, rfl⟩ := Option.isSome_iff_exists.mp (hnext.resolve_right hnone)
        refine ⟨state, s, rfl, List.forall_mem_cons.mpr ⟨fun _ => le_rfl, fun e he _ => holder e he⟩,
          List.forall_mem_cons.mpr ⟨fun h => absurd h hat, fun e he h => absurd h (hrest e he)⟩, ?_⟩
        exact fun s' hs' => (congrArg State.tMonoNs (Option.some.inj hs')).le

/-! ## the interpolation -/

theorem broadcast_map {α β γ α' β' γ' : Type} (g : α' → α) (k : β' → β) (w : γ' → γ) (f : α → β → γ) (f' : α' → β' → γ')
    (hf : ∀ x y, f (g x) (k y) = w (f' x y)) (x : List α') (y : List β') :
    broadcast f (x.map g) (y.map k) = (broadcast f' x y).map (List.map w) := by
  unfold broadcast
  rw [List.length_map, List.length_map]
  split_ifs with hlen
  · rw [Option.map_some, List.zipWith_map, List.map_zipWith]
    simp only [hf]
  · rcases x with _ | ⟨x, _ | ⟨x', xs⟩⟩ <;> rcases y with _ | ⟨y, _ | ⟨y', ys⟩⟩ <;> simp [hf]

theorem scale_ofRat (c : ℚ) (p : List ℚ) : Vec.scale (.fin c) (Vec.ofRat p) = p.map fun x => Value.fin (c * x) :=
  List.map_map ..

theorem fraction_eq {before after : State} :
    fraction target before after = ((target - before.tMonoNs : ℤ) : ℚ) / ((after.tMonoNs - before.tMonoNs : ℤ) : ℚ) := by
  unfold fraction
  split_ifs with h
  · have hzero : ((after.tMonoNs - before.tMonoNs : ℤ) : ℚ) = 0 := by
      unfold seconds at h
      linarith
    rw [hzero, div_zero]
  · rfl

/-- the weighted rows add up to the point between them -/
theorem broadcast_weighted (target t₀ t₁ : ℤ) (p₀ p₁ : List ℚ) :
    broadcast (· + ·) (Vec.scale (.fin (1 - ((target - t₀ : ℤ) : ℚ) / ((t₁ - t₀ : ℤ) : ℚ))) (Vec.ofRat p₀))
        (Vec.scale (.fin (((target - t₀ : ℤ) : ℚ) / ((t₁ - t₀ : ℤ) : ℚ))) (Vec.ofRat p₁)) =
      (broadcast (between target t₀ t₁) p₀ p₁).map Vec.ofRat := by
  rw [scale_ofRat, scale_ofRat]
  refine broadcast_map _ _ _ _ _ (fun x y => ?_) p₀ p₁
  rw [Value.fin_add]
  unfold between
  congr 1
  ring

theorem position_eq_ok {s : State} {q : List Value} (h : position a s = .ok q) : q = s.q ∧ ∃ p, s.q = Vec.ofRat p := by
  unfold position at h
  split_ifs at h with hbad
  refine ⟨(Except.ok.inj h).symm, Vec.isFinite_iff.mp ?_⟩
  simp only [List.any_cons, Bool.or_eq_true, Bool.not_eq_true', not_or, Bool.not_eq_false] at hbad
  exact hbad.1.2

theorem interpolate_eq_ok {before after : State} {b : Bracket} (h : interpolate a target before after = .ok b) :
    ∃ p₀ p₁ p, before.q = Vec.ofRat p₀ ∧ after.q = Vec.ofRat p₁ ∧
      broadcast (between target before.tMonoNs after.tMonoNs) p₀ p₁ = some p ∧ b.q = Vec.ofRat p := by
  unfold interpolate at h
  obtain ⟨q₀, h₀, h⟩ := Except.bind_eq_ok.mp h
  obtain ⟨q₁, h₁, h⟩ := Except.bind_eq_ok.mp h
  obtain ⟨rfl, p₀, hp₀⟩ := position_eq_ok h₀
  obtain ⟨rfl, p₁, hp₁⟩ := position_eq_ok h₁
  have hsum := broadcast_weighted target before.tMonoNs after.tMonoNs p₀ p₁
  rw [← fraction_eq, ← hp₀, ← hp₁] at hsum
  rw [hsum] at h
  cases hp : broadcast (between target before.tMonoNs after.tMonoNs) p₀ p₁ with
  | none =>
    rw [hp] at h
    cases h
  | some p =>
    rw [hp] at h
    exact ⟨p₀, p₁, p, hp₀, hp₁, hp, congrArg Bracket.q (Except.ok.inj h).symm⟩

theorem bracket_eq_ok {history : History} {newest : State × Value} {b : Bracket} (hends : history.getLast? = some newest)
    (h : bracket now maxAgeS maxIntervalS target a newest.1 history = .ok b) :
    ∃ before after, Bracketed now maxAgeS maxIntervalS target history newest before after b.q := by
  unfold bracket at h
  obtain ⟨⟨_ | before, _ | after⟩, hscan, h⟩ := Except.bind_eq_ok.mp h
  · cases h
  · cases h
  · cases h
  obtain ⟨rb, rs, hadj, husable, hle, hge⟩ := scan_adjacent hscan
  dsimp only at h
  split_ifs at h with hpos hgap
  obtain ⟨p₀, p₁, p, hinside⟩ := interpolate_eq_ok h
  exact ⟨(before, rb), (after, rs), hends, hadj, husable, not_le.mp hpos, ⟨hle, hge⟩, not_lt.mp hgap, p₀, p₁, p, hinside⟩

end

/-! ## both arms -/

/-- all entries are one -/
theorem dedup_length_eq_one {α : Type} [DecidableEq α] {l : List α} (hne : l ≠ []) :
    l.dedup.length = 1 ↔ ∃ d, ∀ x ∈ l, x = d := by
  constructor
  · intro h
    obtain ⟨d, hd⟩ := List.length_eq_one_iff.mp h
    refine ⟨d, fun x hx => List.mem_singleton.mp ?_⟩
    rw [← hd]
    exact List.mem_dedup.mpr hx
  · rintro ⟨d, hd⟩
    rw [List.eq_replicate_of_mem hd, List.replicate_dedup (fun h => hne (List.length_eq_zero_iff.mp h))]
    rfl

/-- both links are on one attested clock, or on one host without an attested clock -/
def OneClock (links : Dict String Link) : Prop :=
  (∃ d, ∀ e ∈ links.entries, e.2.clockDomain = some d) ∨
    ((∀ e ∈ links.entries, e.2.clockDomain = none) ∧ ∃ h, ∀ e ∈ links.entries, e.2.host = h)

theorem checkDomains_eq_ok {links : Dict String Link} (hne : links.entries ≠ []) :
    checkDomains links = .ok () ↔ OneClock links := by
  have hmap : ∀ {β : Type} (f : String × Link → β), links.entries.map f ≠ [] := fun f h => hne (List.map_eq_nil_iff.mp h)
  have hall : ∀ {β : Type} (f : String × Link → β) (d : β), (∀ x ∈ links.entries.map f, x = d) ↔ ∀ e ∈ links.entries, f e = d :=
    fun f d => List.forall_mem_map
  unfold checkDomains OneClock
  dsimp only
  by_cases hsome : (links.entries.map fun e => e.2.clockDomain).any Option.isSome = true
  · rw [if_pos hsome]
    obtain ⟨x, hx, hd⟩ := List.any_eq_true.mp hsome
    obtain ⟨e, he, rfl⟩ := List.mem_map.mp hx
    constructor
    · intro h
      split_ifs at h with hnone hmany
      obtain ⟨d, hsame⟩ := (dedup_length_eq_one (hmap _)).mp (not_not.mp hmany)
      rw [hall] at hsame
      obtain ⟨d', hd'⟩ := Option.isSome_iff_exists.mp hd
      exact .inl ⟨d', fun e' he' => by rw [hsame e' he', ← hsame e he, hd']⟩
    · rintro (⟨d, hsame⟩ | ⟨hnone, -⟩)
      · have hno : ¬ (links.entries.map fun e => e.2.clockDomain).any Option.isNone = true := by
          rw [List.any_eq_true]
          rintro ⟨x, hx, hn⟩
          obtain ⟨e', he', rfl⟩ := List.mem_map.mp hx
          rw [hsame e' he'] at hn
          cases hn
        rw [if_neg hno, if_neg]
        exact not_not.mpr ((dedup_length_eq_one (hmap _)).mpr ⟨some d, (hall _ _).mpr hsame⟩)
      · rw [hnone e he] at hd
        cases hd
  · rw [if_neg hsome]
    have hunattested : ∀ e ∈ links.entries, e.2.clockDomain = none := by
      intro e he
      refine Option.not_isSome_iff_eq_none.mp fun hd => hsome ?_
      exact List.any_eq_true.mpr ⟨_, List.mem_map.mpr ⟨e, he, rfl⟩, hd⟩
    constructor
    · intro h
      split_ifs at h with hmany
      obtain ⟨d, hsame⟩ := (dedup_length_eq_one (hmap _)).mp (not_not.mp hmany)
      exact .inr ⟨hunattested, d, (hall _ _).mp hsame⟩
    · rintro (⟨d, hsame⟩ | ⟨-, d, hsame⟩)
      · obtain ⟨e, he⟩ := List.exists_mem_of_ne_nil _ hne
        exact absurd ((hunattested e he).symm.trans (hsame e he)) (Option.some_ne_none d).symm
      · rw [if_neg]
        exact not_not.mpr ((dedup_length_eq_one (hmap _)).mpr ⟨d, (hall _ _).mpr hsame⟩)

section
variable {hex : String → Option ℤ} {links : Dict String Link} {histories : Dict String History} {now : Value}
  {maxAgeS maxIntervalS : ℚ} {a : String} {history : History}

theorem checkLatest_eq_ok {s : State} (h : checkLatest hex links now maxAgeS a history = .ok s) :
    ∃ r, history.getLast? = some (s, r) := by
  unfold checkLatest at h
  cases hlast : history.getLast? with
  | none =>
    rw [hlast] at h
    cases h
  | some e =>
    rw [hlast] at h
    dsimp only at h
    cases hlink : links.get a with
    | none =>
      rw [hlink] at h
      cases h
    | some link =>
      rw [hlink] at h
      dsimp only at h
      cases hhex : hex link.motorHealth.sessionId with
      | none =>
        rw [hhex] at h
        cases h
      | some session =>
        rw [hhex] at h
        dsimp only at h
        split_ifs at h
        obtain ⟨q, -, h⟩ := Except.bind_eq_ok.mp h
        obtain rfl := Except.ok.inj h
        exact ⟨e.2, rfl⟩

/-- `min` and `max` of a row -/
theorem isLeast_least {l : List ℤ} (h : l ≠ []) : IsLeast {t | t ∈ l} (least l) := by
  unfold least
  cases hmin : l.min? with
  | none => exact absurd (List.min?_eq_none_iff.mp hmin) h
  | some m => exact ⟨(List.min?_eq_some_iff.mp hmin).1, (List.min?_eq_some_iff.mp hmin).2⟩

theorem greatest_mem {l : List ℤ} (h : l ≠ []) : greatest l ∈ l := by
  unfold greatest
  cases hmax : l.max? with
  | none => exact absurd (List.max?_eq_none_iff.mp hmax) h
  | some m => exact (List.max?_eq_some_iff.mp hmax).1

/-- the stamps that end the histories -/
def newestStamps (histories : Dict String History) : Set ℤ :=
  {t | ∃ e ∈ histories.entries, ∃ s ∈ e.2.getLast?, t = s.1.tMonoNs}

/-- the positions are interpolations at one stamp, on one clock -/
structure Aligned (links : Dict String Link) (histories : Dict String History) (now : Value) (maxAgeS maxIntervalS : ℚ)
    (positions : List (String × List Value)) : Prop where
  pair : links.entries.length = 2
  clock : OneClock links
  arms : positions.map Prod.fst = histories.keys
  at_target : ∃ target, IsLeast (newestStamps histories) target ∧ ∀ a row, (a, row) ∈ positions →
    ∃ history newest before after, histories.get a = some history ∧
      Bracketed now maxAgeS maxIntervalS target history newest before after row

theorem latestOf_eq_ok {e : String × History} {l : String × State × History} (h : latestOf hex links now maxAgeS e = .ok l) :
    l.1 = e.1 ∧ l.2.2 = e.2 ∧ ∃ r, e.2.getLast? = some (l.2.1, r) := by
  unfold latestOf at h
  obtain ⟨s, hs, h⟩ := Except.bind_eq_ok.mp h
  obtain rfl := Except.ok.inj h
  exact ⟨rfl, rfl, checkLatest_eq_ok hs⟩

/-- the newest packets' stamps -/
theorem newestStamps_eq {latest : List (String × State × History)}
    (h : histories.entries.mapM (latestOf hex links now maxAgeS) = .ok latest) :
    newestStamps histories = {t | t ∈ latest.map fun l => l.2.1.tMonoNs} := by
  ext t
  constructor
  · rintro ⟨e, he, s, hs, rfl⟩
    obtain ⟨l, hl, hok⟩ := Except.result_of_mem h he
    obtain ⟨-, -, r, hlast⟩ := latestOf_eq_ok hok
    obtain rfl := Option.some.inj (hlast.symm.trans hs)
    exact List.mem_map.mpr ⟨l, hl, rfl⟩
  · intro ht
    obtain ⟨l, hl, rfl⟩ := List.mem_map.mp ht
    obtain ⟨e, he, hok⟩ := Except.source_of_mem h hl
    obtain ⟨-, -, r, hlast⟩ := latestOf_eq_ok hok
    exact ⟨e, he, (l.2.1, r), hlast, rfl⟩

theorem bracketOf_eq_ok {target : ℤ} {l : String × State × History} {b : String × Bracket}
    (h : bracketOf now maxAgeS maxIntervalS target l = .ok b) :
    b.1 = l.1 ∧ bracket now maxAgeS maxIntervalS target l.1 l.2.1 l.2.2 = .ok b.2 := by
  unfold bracketOf at h
  obtain ⟨b', hb', h⟩ := Except.bind_eq_ok.mp h
  obtain rfl := Except.ok.inj h
  exact ⟨rfl, hb'⟩

theorem ne_nil_of_keys (hpair : links.entries.length = 2) (hkeys : links.keys ⊆ histories.keys) : histories.entries ≠ [] := by
  intro hnil
  have hnone : histories.keys = [] := by
    unfold Dict.keys
    rw [hnil, List.map_nil]
  rw [hnone] at hkeys
  have hlinks := congrArg List.length (List.eq_nil_of_subset_nil hkeys)
  unfold Dict.keys at hlinks
  rw [List.length_map, hpair] at hlinks
  cases hlinks

/-- **A return interpolates.** -/
theorem aligned_of_ok {positions : List (String × List Value)} {report : Report}
    (h : alignFeedback hex links histories now maxAgeS maxIntervalS = .ok (positions, report)) :
    Aligned links histories now maxAgeS maxIntervalS positions := by
  unfold alignFeedback at h
  split_ifs at h with hboth
  rw [not_or, not_not, not_not] at hboth
  obtain ⟨hpair, hkeys, -⟩ := hboth
  have hne : links.entries ≠ [] := fun hnil => by simp [hnil] at hpair
  obtain ⟨_, hclock, h⟩ := Except.bind_eq_ok.mp h
  obtain ⟨latest, hlatest, h⟩ := Except.bind_eq_ok.mp h
  dsimp only at h
  split_ifs at h with hskew
  obtain ⟨brackets, hbrackets, h⟩ := Except.bind_eq_ok.mp h
  obtain ⟨rfl, -⟩ := Prod.mk.inj (Except.ok.inj h)
  refine ⟨hpair, (checkDomains_eq_ok hne).mp hclock, ?_, least (latest.map fun l => l.2.1.tMonoNs), ?_, ?_⟩
  · calc (brackets.map fun b => (b.1, b.2.q)).map Prod.fst
        = brackets.map Prod.fst := List.map_map ..
      _ = latest.map Prod.fst := Except.map_eq_of_mapM hbrackets fun l b hb => (bracketOf_eq_ok hb).1
      _ = histories.keys := Except.map_eq_of_mapM hlatest fun e l hl => (latestOf_eq_ok hl).1
  · rw [newestStamps_eq hlatest]
    refine isLeast_least fun hnil => ne_nil_of_keys hpair hkeys ?_
    have hlength := congrArg List.length (List.map_eq_nil_iff.mp hnil)
    rw [← (Except.forall₂_of_mapM hlatest).length_eq] at hlength
    exact List.length_eq_zero_iff.mp hlength
  · intro a row hrow
    obtain ⟨b, hb, hab⟩ := List.mem_map.mp hrow
    obtain ⟨rfl, rfl⟩ := Prod.mk.inj hab
    obtain ⟨l, hl, hok⟩ := Except.source_of_mem hbrackets hb
    obtain ⟨hname, hbracket⟩ := bracketOf_eq_ok hok
    obtain ⟨e, he, hok⟩ := Except.source_of_mem hlatest hl
    obtain ⟨hname', hhistory, r, hlast⟩ := latestOf_eq_ok hok
    rw [hhistory] at hbracket
    obtain ⟨before, after, hall⟩ := bracket_eq_ok hlast hbracket
    refine ⟨e.2, (l.2.1, r), before, after, Dict.mem_entries.mp ?_, hall⟩
    rw [hname, hname']
    exact he

/-! ## histories that cannot be refused -/

/-- a fresh and healthy history of one epoch, with packets about the target -/
structure Steady (hex : String → Option ℤ) (link : Link) (now : Value) (maxAgeS maxIntervalS : ℚ) (target : ℤ)
    (history : History) : Prop where
  increasing : history.Pairwise fun e e' => e.1.tMonoNs < e'.1.tMonoNs
  recent : ∀ e ∈ history, Recent now maxAgeS e.2
  healthy : ∀ e ∈ history, e.1.faulted = false
  finite : ∀ e ∈ history, ∀ v ∈ [e.1.q, e.1.dq], v.length = e.1.n ∧ Vec.isFinite v = true
  session : ∀ e ∈ history, hex link.motorHealth.sessionId = some e.1.sessionId
  arm : ∀ e ∈ history, e.1.armed = true → e.1.armEpoch = link.motorHealth.armEpoch
  epoch : ∀ e ∈ history, ∀ e' ∈ history, Feedback.epoch e.1 = Feedback.epoch e'.1
  around : ∃ s₀ ∈ history, ∃ s₁ ∈ history, s₀.1.tMonoNs ≤ target ∧ target ≤ s₁.1.tMonoNs ∧
    seconds (s₁.1.tMonoNs - s₀.1.tMonoNs) ≤ maxIntervalS

/-- what a link's packets have: a stamp after the start of the clock, and the arm's number of joints -/
structure Numbered (history : History) : Prop where
  positive : ∀ e ∈ history, 0 < e.1.tMonoNs
  joints : ∃ n, ∀ e ∈ history, e.1.n = n

variable {link : Link} {target : ℤ}

theorem Steady.position (h : Steady hex link now maxAgeS maxIntervalS target history) {e : State × Value} (he : e ∈ history) :
    Feedback.position a e.1 = .ok e.1.q := by
  unfold Feedback.position
  rw [if_neg]
  intro hbad
  obtain ⟨v, hv, hbad⟩ := List.any_eq_true.mp hbad
  obtain ⟨hlen, hfin⟩ := h.finite e he v hv
  rw [hlen, hfin, bne_self_eq_false] at hbad
  cases hbad

theorem Steady.usable (h : Steady hex link now maxAgeS maxIntervalS target history) {e newest : State × Value}
    (he : e ∈ history) (hnewest : newest ∈ history) : Usable now maxAgeS newest.1 e := by
  obtain ⟨hsession, harm, hstop⟩ := epoch_eq_iff.mp (h.epoch e he newest hnewest)
  exact ⟨hsession, harm, hstop, h.healthy e he, h.recent e he⟩

/-- rows of one length are interpolated -/
theorem exists_interpolate {before after : State} (h₀ : position a before = .ok before.q) (h₁ : position a after = .ok after.q)
    (hlen : before.q.length = after.q.length) (target : ℤ) : ∃ b, interpolate a target before after = .ok b := by
  have hsum : ∀ c d : Value, broadcast (· + ·) (Vec.scale c before.q) (Vec.scale d after.q) =
      some ((Vec.scale c before.q).zipWith (· + ·) (Vec.scale d after.q)) := by
    intro c d
    unfold broadcast Vec.scale
    rw [if_pos (by rw [List.length_map, List.length_map, hlen])]
  unfold interpolate
  rw [h₀, h₁]
  dsimp only [bind, Except.bind]
  rw [hsum]
  exact ⟨_, rfl⟩

theorem Steady.latestOf (h : Steady hex link now maxAgeS maxIntervalS target history) (hnum : Numbered history)
    (hlink : links.get a = some link) :
    ∃ s r, history.getLast? = some (s, r) ∧ Feedback.latestOf hex links now maxAgeS (a, history) = .ok (a, s, history) := by
  obtain ⟨e, he, -⟩ := h.around
  obtain ⟨older, ⟨s, r⟩, rfl⟩ := (List.eq_nil_or_concat' history).resolve_left (List.ne_nil_of_mem he)
  have hmem : (s, r) ∈ older ++ [(s, r)] := by simp
  have hlast : (older ++ [(s, r)]).getLast? = some (s, r) := List.getLast?_concat
  refine ⟨s, r, hlast, ?_⟩
  have hsession : ¬ (s.sessionId ≠ s.sessionId ∨ (s.armed = true ∧ s.armEpoch ≠ link.motorHealth.armEpoch)) := by
    rintro (hne | ⟨harmed, hne⟩)
    · exact hne rfl
    · exact hne (h.arm _ hmem harmed)
  have hfresh : ¬ (r.isFinite = false ∨ fresh now maxAgeS r = false) := by
    have hrecent := h.recent _ hmem
    rw [fresh_iff.mpr hrecent]
    obtain ⟨-, q, -, rfl, -⟩ := hrecent
    rintro (hfin | hfin) <;> cases hfin
  have hvalid : ¬ (s.tMonoNs ≤ 0 ∨ s.faulted = true) := by
    rw [h.healthy _ hmem]
    rintro (hle | hfault)
    · exact absurd (hnum.positive _ hmem) (not_lt.mpr hle)
    · cases hfault
  have horder : ¬ ∃ e ∈ (older ++ [(s, r)]).dropLast.getLast?, e.1.tMonoNs ≥ s.tMonoNs := by
    rw [List.dropLast_concat]
    rintro ⟨e, he, hge⟩
    have hlt := (List.pairwise_append.mp h.increasing).2.2 e (List.mem_of_getLast? he) (s, r) (by simp)
    exact absurd hlt (not_lt.mpr hge)
  unfold Feedback.latestOf checkLatest
  dsimp only
  rw [hlast, hlink]
  dsimp only
  rw [h.session _ hmem]
  dsimp only
  rw [if_neg hsession, if_neg hfresh, if_neg hvalid, if_neg horder, h.position hmem]
  rfl

theorem Steady.bracketOf (h : Steady hex link now maxAgeS maxIntervalS target history) (hnum : Numbered history)
    {newest : State × Value} (hends : history.getLast? = some newest) :
    ∃ b, Feedback.bracketOf now maxAgeS maxIntervalS target (a, newest.1, history) = .ok b := by
  have hnewest : newest ∈ history := List.mem_of_getLast? hends
  obtain ⟨s₀, hs₀, s₁, hs₁, hle, hge, htight⟩ := h.around
  have hnone : ∀ s ∈ (none : Option State), ∀ e ∈ history.reverse, e.1.tMonoNs < s.tMonoNs := fun s hs => by cases hs
  obtain ⟨b, s, hscan, hb, hs, -⟩ := scan_tightest (a := a) (List.pairwise_reverse.mpr h.increasing)
    (fun e he => h.usable (List.mem_reverse.mp he) hnewest) hnone
    ⟨s₀, List.mem_reverse.mpr hs₀, hle⟩ (.inr ⟨s₁, List.mem_reverse.mpr hs₁, hge⟩)
  obtain ⟨rb, rs, hadj, -⟩ := scan_adjacent hscan
  obtain ⟨hbmem, hsmem⟩ : (b, rb) ∈ history ∧ (s, rs) ∈ history := by
    rcases hadj with ⟨heq, hmem⟩ | ⟨l, r, rfl⟩
    · exact ⟨hmem, heq ▸ hmem⟩
    · constructor <;> simp
  have hwidth : ¬ seconds (s.tMonoNs - b.tMonoNs) > maxIntervalS := by
    have h₀ : s₀.1.tMonoNs ≤ b.tMonoNs := hb s₀ (List.mem_reverse.mpr hs₀) hle
    have h₁ : s.tMonoNs ≤ s₁.1.tMonoNs := hs s₁ (List.mem_reverse.mpr hs₁) hge
    have hcast : ((s.tMonoNs - b.tMonoNs : ℤ) : ℚ) ≤ ((s₁.1.tMonoNs - s₀.1.tMonoNs : ℤ) : ℚ) := by
      exact_mod_cast (by omega : s.tMonoNs - b.tMonoNs ≤ s₁.1.tMonoNs - s₀.1.tMonoNs)
    refine not_lt.mpr (le_trans ?_ htight)
    exact mul_le_mul_of_nonneg_right hcast (by norm_num)
  obtain ⟨n, hn⟩ := hnum.joints
  have hlen : b.q.length = s.q.length := by
    rw [(h.finite _ hbmem b.q (by simp)).1, (h.finite _ hsmem s.q (by simp)).1, hn _ hbmem, hn _ hsmem]
  obtain ⟨r, hr⟩ := exists_interpolate (h.position (a := a) hbmem) (h.position hsmem) hlen target
  unfold Feedback.bracketOf bracket
  dsimp only
  rw [hscan]
  dsimp only [bind, Except.bind]
  rw [if_neg (not_le.mpr (hnum.positive _ hbmem)), if_neg hwidth, hr]
  exact ⟨_, rfl⟩

/-- **Steady histories on one clock are aligned.** -/
theorem ok_of_steady (hpair : links.entries.length = 2) (hkeys : links.keys ⊆ histories.keys ∧ histories.keys ⊆ links.keys)
    (hclock : OneClock links) (htarget : IsLeast (newestStamps histories) target)
    (hskew : ∀ t ∈ newestStamps histories, seconds (t - target) ≤ maxIntervalS)
    (hsteady : ∀ a link history, links.get a = some link → histories.get a = some history →
      Steady hex link now maxAgeS maxIntervalS target history ∧ Numbered history) :
    ∃ r, alignFeedback hex links histories now maxAgeS maxIntervalS = .ok r := by
  have hne : links.entries ≠ [] := fun hnil => by simp [hnil] at hpair
  have harm : ∀ e ∈ histories.entries, ∃ link, links.get e.1 = some link ∧
      Steady hex link now maxAgeS maxIntervalS target e.2 ∧ Numbered e.2 := by
    intro e he
    obtain ⟨link, hlink⟩ := Dict.mem_keys.mp (hkeys.2 (List.mem_map_of_mem he))
    exact ⟨link, hlink, hsteady e.1 link e.2 hlink (Dict.mem_entries.mp he)⟩
  obtain ⟨latest, hlatest⟩ := Except.exists_mapM fun e he => by
    obtain ⟨link, hlink, hs, hnum⟩ := harm e he
    obtain ⟨s, r, -, hok⟩ := hs.latestOf hnum hlink
    exact ⟨_, hok⟩
  have hstamps := newestStamps_eq hlatest
  have hnil : (latest.map fun l => l.2.1.tMonoNs) ≠ [] := by
    obtain ⟨e, he, -⟩ := htarget.1
    obtain ⟨l, hl, -⟩ := Except.result_of_mem hlatest he
    exact List.ne_nil_of_mem (List.mem_map_of_mem hl)
  have hleast : least (latest.map fun l => l.2.1.tMonoNs) = target := by
    rw [hstamps] at htarget
    exact (isLeast_least hnil).unique htarget
  have hsmall : ¬ seconds (greatest (latest.map fun l => l.2.1.tMonoNs) - target) > maxIntervalS := by
    refine not_lt.mpr (hskew _ ?_)
    rw [hstamps]
    exact greatest_mem hnil
  obtain ⟨brackets, hbrackets⟩ := Except.exists_mapM fun l hl => by
    obtain ⟨e, he, hok⟩ := Except.source_of_mem hlatest hl
    obtain ⟨link, -, hs, hnum⟩ := harm e he
    obtain ⟨hname, hhistory, r, hlast⟩ := latestOf_eq_ok hok
    obtain ⟨b, hb⟩ := hs.bracketOf (a := l.1) hnum hlast
    rw [← hhistory] at hb
    exact ⟨b, hb⟩
  have hdomains := (checkDomains_eq_ok hne).mpr hclock
  unfold alignFeedback
  rw [if_neg (not_or.mpr ⟨not_not.mpr hpair, not_not.mpr hkeys⟩), hdomains, hlatest]
  dsimp only [bind, Except.bind]
  rw [hleast, if_neg hsmall, hbrackets]
  exact ⟨_, rfl⟩

end

/-- **Common-time feedback is interpolation only.**  What is returned interpolates an adjacent, usable and tight pair
of packets of each arm's own history at the smaller of the newest stamps, on one clock.  Steady histories of numbered
packets on one clock, with newest stamps close together, return. -/
theorem aligned_feedback (hex : String → Option ℤ) (links : Dict String Link) (histories : Dict String History) (now : Value)
    (maxAgeS maxIntervalS : ℚ) :
    (∀ positions report, alignFeedback hex links histories now maxAgeS maxIntervalS = .ok (positions, report) →
      Aligned links histories now maxAgeS maxIntervalS positions) ∧
    ∀ target, links.entries.length = 2 → links.keys ⊆ histories.keys ∧ histories.keys ⊆ links.keys → OneClock links →
      IsLeast (newestStamps histories) target →
      (∀ t ∈ newestStamps histories, seconds (t - target) ≤ maxIntervalS) →
      (∀ a link history, links.get a = some link → histories.get a = some history →
        Steady hex link now maxAgeS maxIntervalS target history ∧ Numbered history) →
      ∃ r, alignFeedback hex links histories now maxAgeS maxIntervalS = .ok r :=
  ⟨fun _ _ h => aligned_of_ok h, fun _ hpair hkeys hclock htarget hskew hsteady =>
    ok_of_steady hpair hkeys hclock htarget hskew hsteady⟩

/-- a packet at `t` ns of an arm that moves one unit in a nanosecond -/
def benchPacket (t : ℤ) : State × Value :=
  (⟨1, t, t, 7, 1, 0, true, false, [.fin t], [.fin 0]⟩, .fin 20)

def benchHistories : Dict String History where
  entries := [("a", [benchPacket 1, benchPacket 3]), ("b", [benchPacket 2, benchPacket 4])]
  nodup := by decide

def benchLinks (hostA hostB : String) : Dict String Link where
  entries := [("a", ⟨none, hostA, "7", 1⟩), ("b", ⟨none, hostB, "7", 1⟩)]
  nodup := by simp

def benchHex (text : String) : Option ℤ := if text = "7" then some 7 else none

theorem benchStamps : newestStamps benchHistories = {3, 4} := by
  ext t
  constructor
  · rintro ⟨e, he, s, hs, rfl⟩
    rcases List.mem_cons.mp he with rfl | he
    · obtain rfl := Option.some.inj hs
      exact .inl rfl
    · obtain rfl := List.mem_singleton.mp he
      obtain rfl := Option.some.inj hs
      exact .inr rfl
  · rintro (rfl | rfl)
    · exact ⟨_, List.mem_cons_self, benchPacket 3, rfl, rfl⟩
    · exact ⟨_, List.mem_cons_of_mem _ List.mem_cons_self, benchPacket 4, rfl, rfl⟩

theorem benchLeast : IsLeast (newestStamps benchHistories) 3 := by
  rw [benchStamps]
  refine ⟨.inl rfl, ?_⟩
  rintro t (rfl | rfl)
  · exact le_rfl
  · decide

theorem benchSkew : ∀ t ∈ newestStamps benchHistories, seconds (t - 3) ≤ 1 / 50 := by
  rw [benchStamps]
  rintro t (rfl | rfl) <;> norm_num [seconds]

/-- two packets in a row of the bench -/
theorem benchSteady {link : Link} (hlink : link.motorHealth = ⟨"7", 1⟩) {t : ℤ} (hpos : 0 < t) (hle : t ≤ 3) (hge : 3 ≤ t + 2) :
    Steady benchHex link (.fin 20) (1 / 20) (1 / 50) 3 [benchPacket t, benchPacket (t + 2)] ∧
      Numbered [benchPacket t, benchPacket (t + 2)] := by
  have hall : ∀ {P : State × Value → Prop}, (∀ u, P (benchPacket u)) → ∀ e ∈ [benchPacket t, benchPacket (t + 2)], P e := by
    intro P h e he
    rcases List.mem_cons.mp he with rfl | he
    · exact h t
    · exact List.mem_singleton.mp he ▸ h (t + 2)
  refine ⟨⟨List.pairwise_pair.mpr ?_, hall fun u => ⟨20, 20, rfl, rfl, by norm_num, by norm_num⟩, hall fun u => rfl, hall fun u v hv => ?_,
    hall fun u => ?_, hall fun u _ => ?_, hall fun u => hall fun u' => rfl, ?_⟩, ?_, ?_⟩
  · show t < t + 2
    omega
  · rcases List.mem_cons.mp hv with rfl | hv
    · exact ⟨rfl, rfl⟩
    · exact List.mem_singleton.mp hv ▸ ⟨rfl, rfl⟩
  · rw [hlink]
    rfl
  · rw [hlink]
    rfl
  · refine ⟨_, List.mem_cons_self, _, List.mem_cons_of_mem _ List.mem_cons_self, hle, hge, ?_⟩
    have hwidth : (benchPacket (t + 2)).1.tMonoNs - (benchPacket t).1.tMonoNs = 2 := by
      show t + 2 - t = 2
      omega
    rw [hwidth]
    norm_num [seconds]
  · rintro e he
    rcases List.mem_cons.mp he with rfl | he
    · exact hpos
    · rw [List.mem_singleton.mp he]
      show 0 < t + 2
      omega
  · exact ⟨1, hall fun u => rfl⟩

theorem benchArms {hostA hostB : String} (a : String) (link : Link) (history : History)
    (hlink : (benchLinks hostA hostB).get a = some link) (hhistory : benchHistories.get a = some history) :
    Steady benchHex link (.fin 20) (1 / 20) (1 / 50) 3 history ∧ Numbered history := by
  have hhealth : link.motorHealth = ⟨"7", 1⟩ := by
    rcases List.mem_cons.mp (Dict.mem_entries.mpr hlink) with he | he
    · obtain ⟨-, rfl⟩ := Prod.mk.inj he
      rfl
    · obtain ⟨-, rfl⟩ := Prod.mk.inj (List.mem_singleton.mp he)
      rfl
  rcases List.mem_cons.mp (Dict.mem_entries.mpr hhistory) with he | he
  · obtain ⟨-, rfl⟩ := Prod.mk.inj he
    exact benchSteady hhealth (by decide) (by decide) (by decide)
  · obtain ⟨-, rfl⟩ := Prod.mk.inj (List.mem_singleton.mp he)
    exact benchSteady hhealth (by decide) (by decide) (by decide)

/-- two arms on one host -/
theorem aligned_feedback_bench :
    ∃ positions report, alignFeedback benchHex (benchLinks "host" "host") benchHistories (.fin 20) (1 / 20) (1 / 50) =
        .ok (positions, report) ∧
      Aligned (benchLinks "host" "host") benchHistories (.fin 20) (1 / 20) (1 / 50) positions := by
  have hclock : OneClock (benchLinks "host" "host") := by
    refine .inr ⟨fun e he => ?_, "host", fun e he => ?_⟩ <;> rcases List.mem_cons.mp he with rfl | he
    · rfl
    · exact List.mem_singleton.mp he ▸ rfl
    · rfl
    · exact List.mem_singleton.mp he ▸ rfl
  obtain ⟨hforward, hback⟩ :=
    aligned_feedback benchHex (benchLinks "host" "host") benchHistories (.fin 20) (1 / 20) (1 / 50)
  obtain ⟨⟨positions, report⟩, hr⟩ := hback 3 rfl ⟨fun _ h => h, fun _ h => h⟩ hclock benchLeast benchSkew benchArms
  exact ⟨positions, report, hr, hforward positions report hr⟩

/-- steady histories of two hosts are refused -/
theorem two_hosts :
    ((benchLinks "one" "two").entries.length = 2 ∧ (benchLinks "one" "two").keys = benchHistories.keys ∧
      IsLeast (newestStamps benchHistories) 3 ∧ (∀ t ∈ newestStamps benchHistories, seconds (t - 3) ≤ 1 / 50) ∧
      ∀ a link history, (benchLinks "one" "two").get a = some link → benchHistories.get a = some history →
        Steady benchHex link (.fin 20) (1 / 20) (1 / 50) 3 history) ∧
    alignFeedback benchHex (benchLinks "one" "two") benchHistories (.fin 20) (1 / 20) (1 / 50) =
      .error (.valueError "paired feedback requires one RT host clock") :=
  ⟨⟨rfl, rfl, benchLeast, benchSkew, fun a link history h h' => (benchArms a link history h h').1⟩, rfl⟩

/-! ## two supervisors -/

/-- a packet of a `state_history` reply -/
structure Sample where
  tMonoNs : ℤ
  stateSeq : ℤ
  ageNs : ℤ
  sessionId : ℤ
  armEpoch : ℤ
  stopEpoch : ℤ
  armed : Bool
  faulted : Bool
  q : List Value
  dq : List Value

structure Reply where
  clockDomain : Option String
  authority : Authority
  samples : List Sample

def Sample.state (s : Sample) : State :=
  ⟨s.q.length, s.stateSeq, s.tMonoNs, s.sessionId, s.armEpoch, s.stopEpoch, s.armed, s.faulted, s.q, s.dq⟩

/-- one arm's link and history, from a reply that was asked for at `before` -/
def adopt (built : Dict String Link × Dict String History) (arm : String × Value × Reply) :
    Except AlignError (Dict String Link × Dict String History) :=
  match arm.2.2.clockDomain with
  | none => .error (.valueError (arm.1 ++ ": paired feedback needs an attested RT clock domain through a supervisor"))
  | some domain =>
    .ok (built.1.set arm.1 ⟨some (domain.splitOn ":"), domain, arm.2.2.authority⟩,
      built.2.set arm.1 (arm.2.2.samples.map fun s => (s.state, arm.2.1 - .fin (seconds s.ageNs))))

/-- each arm's reply with the clock's reading before the call, and a reading after all of them -/
def alignArms (hex : String → Option ℤ) (arms : Dict String (Value × Reply)) (now : Value) (maxAgeS maxIntervalS : ℚ) :
    Except AlignError (List (String × List Value) × Report) := do
  let (links, histories) ← arms.entries.foldlM adopt ({}, {})
  alignFeedback hex links histories now maxAgeS maxIntervalS

/-- attested links, and histories of the replies -/
structure Adopted (arms : List (String × Value × Reply)) (built : Dict String Link × Dict String History) : Prop where
  attested : ∀ a link, built.1.get a = some link → link.clockDomain.isSome = true
  fed : ∀ a history, built.2.get a = some history → ∃ before reply, (a, before, reply) ∈ arms ∧
    history = reply.samples.map fun s => (s.state, before - .fin (seconds s.ageNs))

theorem Adopted.step {arms : List (String × Value × Reply)} {built built' : Dict String Link × Dict String History}
    (h : Adopted arms built) {arm : String × Value × Reply} (hmem : arm ∈ arms) (hok : adopt built arm = .ok built') :
    Adopted arms built' := by
  unfold adopt at hok
  cases hdomain : arm.2.2.clockDomain with
  | none =>
    rw [hdomain] at hok
    cases hok
  | some domain =>
    rw [hdomain] at hok
    obtain rfl := Except.ok.inj hok
    constructor
    · intro a link hget
      rw [Dict.get_set] at hget
      split_ifs at hget
      · obtain rfl := Option.some.inj hget
        rfl
      · exact h.attested a link hget
    · intro a history hget
      rw [Dict.get_set] at hget
      split_ifs at hget with ha
      · obtain rfl := Option.some.inj hget
        exact ⟨arm.2.1, arm.2.2, ha ▸ hmem, rfl⟩
      · exact h.fed a history hget

theorem Adopted.all {arms l : List (String × Value × Reply)} {built built' : Dict String Link × Dict String History}
    (h : Adopted arms built) (hl : l ⊆ arms) (hok : l.foldlM adopt built = .ok built') : Adopted arms built' := by
  induction l generalizing built with
  | nil => exact Except.ok.inj hok ▸ h
  | cons arm l ih =>
    rw [List.foldlM_cons] at hok
    obtain ⟨next, hnext, hok⟩ := Except.bind_eq_ok.mp hok
    exact ih (h.step (hl List.mem_cons_self) hnext) (fun x hx => hl (List.mem_cons_of_mem _ hx)) hok

/-- **Through supervisors.**  A return is aligned on one attested clock, from the packets of the arms' replies. -/
theorem alignArms_one_clock {hex : String → Option ℤ} {arms : Dict String (Value × Reply)} {now : Value}
    {maxAgeS maxIntervalS : ℚ} {positions : List (String × List Value)} {report : Report}
    (h : alignArms hex arms now maxAgeS maxIntervalS = .ok (positions, report)) :
    ∃ links histories, Aligned links histories now maxAgeS maxIntervalS positions ∧ Adopted arms.entries (links, histories) ∧
      ∃ d, ∀ e ∈ links.entries, e.2.clockDomain = some d := by
  unfold alignArms at h
  obtain ⟨⟨links, histories⟩, hbuilt, h⟩ := Except.bind_eq_ok.mp h
  have hstart : Adopted arms.entries ({}, {}) := ⟨fun a link hget => (by cases hget), fun a history hget => (by cases hget)⟩
  have hadopted := hstart.all (fun _ hx => hx) hbuilt
  have haligned := aligned_of_ok h
  refine ⟨links, histories, haligned, hadopted, haligned.clock.resolve_right ?_⟩
  rintro ⟨hnone, -⟩
  obtain ⟨e, he⟩ := List.exists_mem_of_ne_nil links.entries fun hnil => by simpa [hnil] using haligned.pair
  have hsome := hadopted.attested e.1 e.2 (Dict.mem_entries.mp he)
  rw [hnone e he] at hsome
  cases hsome

end ArmControl.MultiArm.Feedback
