import ArmControl.Lib.Dict
import ArmControl.Supervisor.Ledger

/-!
# A group start through the members' supervisors (`multi_arm/supervised_group.py`, `SdkGroupCoordinator`)

Each member has its own supervisor: the executions of `Supervisor/Ledger.lean`, with the group that it joined
(`supervisor/runtime.py`, `group_join`, `_group_set`, `_group_release_op`, `group_cancel`, `_group_take`).

* `GroupArm`, `Supervised`   what decides a member's answers, and its supervisor's state;
* `groupCall`                a group call, whose reply may be refused or lost;
* `groupJoin`, `groupRelease`, `groupReport`, `groupCancel`;
* `GroupState`               the members, the executions, and the log of a start;
* `validate`, `startMembers`, `cancel`, `start`.

The calls of a thread pool go to one supervisor each, so they are made one after the other.
-/

namespace ArmControl.MultiArm.GroupStart

open Execution Executions
open Clients (CallError)

/-! ## a member's supervisor -/

/-- `_group` -/
structure Joined where
  groupId : ℕ
  index : ℕ
  count : ℕ
  armEpoch : ℕ

/-- what the RT answers to a group exchange -/
inductive Exchange where
  | done
  /-- `ReferenceRefused`, with whether its result is `REF_GROUP_REFUSED` -/
  | refused (notInGroup : Bool) (text : String)
  /-- any other `RtLinkError` -/
  | unknown (text : String)

/-- the RT's answer to a COMMIT_GROUP; a selection names the group that it was made for -/
inductive Report where
  | selected (groupId : ℕ) (selectedNs deadlineNs referenceId : ℤ)
  | refused (groupId : Option ℕ) (error : String) (peerVerdict : Option String)
  deriving DecidableEq

def Report.groupId : Report → Option ℕ
  | .selected g _ _ _ => some g
  | .refused g _ _ => g

structure GroupArm where
  env : Env
  /-- the supervisor advertises `group/1` -/
  group : Bool
  /-- `_group_check`: the RT server has a group record -/
  capable : Bool
  /-- what holds at the `n`-th call -/
  armEpoch : ℕ → ℕ
  exchange : ℕ → Exchange
  clockDomain : ℕ → Option String
  /-- the execution that the link is committing for the joined group -/
  committing : ℕ → Option ℕ
  report : ℕ → ℕ → Option Report
  /-- half the RT acknowledgement timeout -/
  budgetBoundNs : ℤ
  /-- the PC's clock before the `n`-th call -/
  clock : ℕ → ℚ

structure Supervised where
  world : World := {}
  joined : Option Joined := none
  /-- `_group_release` -/
  releases : List ℕ := []

def Supervised.setLedger (m : Supervised) (l : Ledger) : Supervised := { m with world := { m.world with ledger := l } }

section
variable {α : Type} (a : GroupArm)

/-- the member's supervisor when the call is handled -/
def Supervised.found (m : Supervised) : Supervised := { m with world := m.world.next (m.world.found a.env) }

/-- the supervisor goes on before the reply -/
def Supervised.settle (m m' : Supervised) : Supervised := m'.setLedger (m'.world.ledger.acts (a.env.turn m.world.calls).within)

/-- a group call that `serve` handles; `serve` knows the number of the call -/
def groupCall (serve : ℕ → Supervised → Except String α × Supervised) : EStateM CallError Supervised α := fun m =>
  let served := serve m.world.calls (m.found a)
  match (a.env.turn m.world.calls).fate with
  | .answered =>
    match served.1 with
    | .ok x => .ok x (m.settle a served.2)
    | .error text => .error (.refused text) (m.settle a served.2)
  | .refused text => .error (.refused text) (m.found a)
  | .lost true loss => .error loss.error (m.settle a served.2)
  | .lost false loss => .error loss.error (m.found a)

/-- another group of the same ARM epoch -/
def otherGroup (m : Supervised) (groupId epoch : ℕ) : Bool :=
  m.joined.any fun j => decide (j.groupId ≠ groupId ∧ j.armEpoch = epoch)

def joinServe (groupId index count n : ℕ) (m : Supervised) : Except String (Option String) × Supervised :=
  if a.capable = false then (.error "the RT server has no group record (group/1 is unavailable)", m)
  else if otherGroup m groupId (a.armEpoch n) then (.error "group join refused: already joined to another group", m)
  else
    -- recorded before the exchange: when its outcome is uncertain a cancel must still reach the RT
    match a.exchange n with
    | .done => (.ok (a.clockDomain n), { m with joined := some ⟨groupId, index, count, a.armEpoch n⟩ })
    | .refused _ text => (.error ("group join refused: " ++ text), m)
    | .unknown text =>
      (.error ("group join outcome unknown (" ++ text ++ "); cancel the group before joining again"),
        { m with joined := some ⟨groupId, index, count, a.armEpoch n⟩ })

def groupJoin (groupId index count : ℕ) : EStateM CallError Supervised (Option String) :=
  groupCall a (joinServe a groupId index count)

/-- the last 16 -/
def enlist (releases : List ℕ) (i : ℕ) : List ℕ :=
  (releases.filter (· ≠ i) ++ [i]).drop ((releases.filter (· ≠ i) ++ [i]).length - 16)

/-- `_release` of a member that is enlisted, which goes when it is refused -/
def releaseEnlisted (i : ℕ) (m : Supervised) : Except String PUnit × Supervised :=
  match m.world.ledger.serve true (.release i) with
  | .ok r => (.ok ⟨⟩, { m with releases := enlist m.releases i }.setLedger r.2)
  | .error text => (.error text, { m with releases := m.releases.filter (· ≠ i) })

def releaseServe (i groupId : ℕ) (budgetNs : ℤ) (n : ℕ) (m : Supervised) : Except String PUnit × Supervised :=
  match m.joined with
  | none => (.error "join the group before releasing a member", m)
  | some j =>
    if j.groupId ≠ groupId then (.error "join the group before releasing a member", m)
    else if ¬ (0 < budgetNs ∧ budgetNs ≤ a.budgetBoundNs) then
      (.error "budget must be positive and at most half the RT acknowledgement timeout (the COMMIT_GROUP wait)", m)
    else if j.armEpoch ≠ a.armEpoch n then
      (.error "the ARM epoch changed since the group was joined: join again", { m with joined := none })
    else
      match m.world.ledger.get i with
      | .error text => (.error text, m)
      | .ok e =>
        if e.request.start ≠ .onRelease then (.error "a group member is a planned ON_RELEASE execution", m)
        else releaseEnlisted i m

def groupRelease (i groupId : ℕ) (budgetNs : ℤ) : EStateM CallError Supervised PUnit :=
  groupCall a (releaseServe a i groupId budgetNs)

def groupReport (i : ℕ) : EStateM CallError Supervised (Option Report) := groupCall a fun n m => (.ok (a.report n i), m)

/-- the executions that were released for the group, or are being committed, are cancelled with it -/
def cancelMembers (eids : List ℕ) (l : Ledger) : Ledger :=
  eids.foldl (fun l i => l.modify i fun e => if e.live then { e with cancelled := true } else e) l

def cancelServe (groupId n : ℕ) (m : Supervised) : Except String Bool × Supervised :=
  match m.joined with
  | none => (.ok false, m)
  | some j =>
    if j.groupId ≠ groupId then (.ok false, m)
    else
      let taken : Supervised :=
        { m with joined := none, releases := [] }.setLedger (cancelMembers (m.releases ++ (a.committing n).toList) m.world.ledger)
      match a.exchange n with
      | .done => (.ok true, taken)
      | .refused true _ => (.ok false, taken)
      | .refused false text => (.error ("group cancel not confirmed: " ++ text), { taken with joined := some j })
      | .unknown text => (.error ("group cancel not confirmed: " ++ text), { taken with joined := some j })

def groupCancel (groupId : ℕ) : EStateM CallError Supervised Bool := groupCall a (cancelServe a groupId)

/-- a call of the executions -/
def onWorld (m : EStateM CallError World α) : EStateM CallError Supervised α :=
  Effect.zoom Supervised.world (fun w m => { m with world := w }) m

end

/-! ## the coordinator -/

inductive Failure where
  | value (text : String)
  /-- `GroupStartError`, with what each member said -/
  | group (text : String) (members : List (String × String))
  | call (e : CallError)

structure MemberStart where
  member : String
  referenceId : ℤ
  rtSelectedNs : ℤ
  rtDeadlineNs : ℤ
  pcCommitSent : ℚ
  pcReplyReceived : ℚ

structure GroupStartRecord where
  groupId : ℕ
  clockDomain : String
  members : List MemberStart

structure SdkGroupCoordinator where
  names : List String
  distinct : names.Nodup
  size : 2 ≤ names.length ∧ names.length ≤ 4
  arms : String → GroupArm
  budgetNs : ℤ
  horizonS : ℚ
  positive : 0 < budgetNs ∧ 0 < horizonS

/-- what a start did at a member -/
inductive Note where
  | joined (name : String) (domain : Option String)
  /-- whether the supervisor took the submission, and whether it answered -/
  | submitted (name : String) (taken answered : Bool)
  | reported (name : String) (r : Report)
  /-- `group_cancel` was attempted -/
  | cancelled (name : String)
  deriving DecidableEq

/-- what is known of a member's selection -/
inductive Outcome where
  | report (r : Report)
  /-- the execution ended before the RT answered -/
  | ended (text : String)

structure GroupState where
  members : String → Supervised
  executions : Dict String ℕ := {}
  replies : Dict String Outcome := {}
  cancelErrors : Dict String String := {}
  log : List Note := []

def GroupState.note (n : Note) (s : GroupState) : GroupState := { s with log := s.log ++ [n] }

section
variable {α : Type}

abbrev M := EStateM Failure GroupState

/-- what a call of a member answers or raises -/
def attempt (name : String) (m : EStateM CallError Supervised α) : M (Except CallError α) := fun s =>
  match m (s.members name) with
  | .ok x w => .ok (.ok x) { s with members := Function.update s.members name w }
  | .error e w => .ok (.error e) { s with members := Function.update s.members name w }

/-- a call that nothing catches -/
def calling (name : String) (m : EStateM CallError Supervised α) : M α := do
  let answered ← attempt name m
  match answered with
  | .ok x => pure x
  | .error e => throw (.call e)

variable (c : SdkGroupCoordinator)

/-- `_validate`, of one request -/
def requestRefusal (name : String) (r : TrajectoryRequest) : Option Failure :=
  if r.start ≠ .onRelease then some (.value (name ++ ": a group member is released by the group, not on admission"))
  else if (c.arms name).group = false then
    some (.group ("group refused: " ++ name ++ " supervisor does not advertise group/1") [(name, "no group")])
  else if r.trajectory.times.getLastD 0 - r.trajectory.times.headD 0 < c.horizonS then
    some (.value (name ++ ": reference covers less than H"))
  else none

def validate (requests : Dict String TrajectoryRequest) : Option Failure :=
  if ¬ requests.keys.Perm c.names then some (.value "one request per member")
  else requests.entries.findSome? fun x => requestRefusal c x.1 x.2

/-- `Refused` and `SupervisorError` become a `GroupStartError` -/
def groupError (text : String) : CallError → Failure
  | .refused t => .group (text ++ t) []
  | .supervisor t => .group (text ++ t) []
  | e => .call e

def joinEach (groupId : ℕ) : List (String × ℕ) → M (List (String × Option String))
  | [] => pure []
  | (name, index) :: rest => do
    let answered ← attempt name (groupJoin (c.arms name) groupId index c.names.length)
    match answered with
    | .error e => throw (groupError ("group " ++ toString groupId ++ " could not be joined: ") e)
    | .ok domain => do
      modify (GroupState.note (.joined name domain))
      let domains ← joinEach groupId rest
      pure ((name, domain) :: domains)

/-- `_domain` -/
def domainOf (domains : List (String × Option String)) : M String :=
  if domains.any (fun x => x.2.isSome) && domains.any (fun x => x.2.isNone) then
    throw (.group "group refused: RT clock domain is attested on some members only" [])
  else
    match domains with
    | [] => throw (.value "next")
    | (_, d) :: rest =>
      if rest.any (fun x => decide (x.2 ≠ d)) then throw (.group "group refused: members are not on one RT clock domain" [])
      else pure (d.getD "unattested")

/-- the supervisor takes a submission -/
def takes (env : Env) (r : TrajectoryRequest) (w : World) : Bool :=
  match (env.turn w.calls).fate with
  | .answered => (w.served env (.submit r)).toOption.isSome
  | .lost true _ => (w.served env (.submit r)).toOption.isSome
  | _ => false

def stageOne (groupId : ℕ) (requests : Dict String TrajectoryRequest) (name : String) : M PUnit :=
  match requests.get name with
  | none => throw (.value name)
  | some r => do
    let s ← get
    let answered ← attempt name (onWorld (ask (c.arms name).env (.submit r)))
    modify (GroupState.note (.submitted name (takes (c.arms name).env r (s.members name).world) answered.toOption.isSome))
    match answered with
    | .error e => throw (groupError ("group " ++ toString groupId ++ " could not be staged: ") e)
    | .ok status => do
      modify fun s => { s with executions := s.executions.set name status.execution }
      if status.phase ≠ .admitted then
        throw (.group ("group " ++ toString groupId ++ ": " ++ name ++ " not admitted: " ++ status.phase.value ++ " " ++ status.reason)
          [(name, status.reason)])
      else pure ⟨⟩

/-- what a release of the pool returns -/
structure Released where
  name : String
  error : Option CallError
  sent : ℚ
  got : ℚ

def releaseEach (groupId : ℕ) : List String → M (List Released)
  | [] => pure []
  | name :: rest => do
    let s ← get
    let answered ← attempt name (groupRelease (c.arms name) ((s.executions.get name).getD 0) groupId c.budgetNs)
    let t ← get
    let released ← releaseEach groupId rest
    pure (⟨name, match answered with | .ok _ => none | .error e => some e,
      (c.arms name).clock (s.members name).world.calls, (c.arms name).clock (t.members name).world.calls⟩ :: released)

/-- an `OSError` leaves the pool, any other error is reported -/
def checkReleased (groupId : ℕ) (released : List Released) : M PUnit :=
  match released.findSome? fun r => r.error.bind fun e => match e with | .os t => some t | _ => none with
  | some t => throw (.call (.os t))
  | none =>
    if released.any (fun r => r.error.isSome) then
      throw (.group ("group " ++ toString groupId ++ " could not be released")
        (released.filterMap fun r => r.error.map fun e => (r.name, e.text)))
    else pure ⟨⟩

/-- an answer for another group is not ours -/
def foreign (groupId : ℕ) (r : Report) : Bool := r.groupId.any (· ≠ groupId)

def lookOne (groupId : ℕ) (name : String) : M PUnit := do
  let s ← get
  if (s.replies.get name).isSome then pure ⟨⟩
  else do
    let reply ← calling name (groupReport (c.arms name) ((s.executions.get name).getD 0))
    match reply with
    | some r =>
      if foreign groupId r then pure ⟨⟩
      else modify fun s => { s with replies := s.replies.set name (.report r), log := s.log ++ [.reported name r] }
    | none => do
      let status ← calling name (onWorld (ask (c.arms name).env (.status ((s.executions.get name).getD 0))))
      if status.terminal then
        modify fun s => { s with replies := s.replies.set name (.ended (status.phase.value ++ ": " ++ status.reason)) }
      else pure ⟨⟩

/-- the rounds until every member has answered or the deadline is over -/
def look (groupId : ℕ) : ℕ → M PUnit
  | 0 => pure ⟨⟩
  | n + 1 => do
    let s ← get
    if s.replies.entries.length < c.names.length then do
      Effect.each c.names (lookOne c groupId)
      look groupId n
    else pure ⟨⟩

/-- the start of one member, or why there is none -/
def memberStart (s : GroupState) (r : Released) : Except (String × String) MemberStart :=
  match s.replies.get r.name with
  | none => .error (r.name, "no reply within the budget")
  | some (.ended text) => .error (r.name, text)
  | some (.report (.refused _ error verdict)) =>
    .error (r.name, error ++ (verdict.map fun v => " peer_verdict=" ++ v).getD "")
  | some (.report (.selected _ selectedNs deadlineNs referenceId)) =>
    .ok ⟨r.name, referenceId, selectedNs, deadlineNs, r.sent, r.got⟩

/-- a member that reported no selection stamp -/
def unstamped (m : MemberStart) : Bool := decide (¬ (0 < m.rtSelectedNs ∧ 0 < m.rtDeadlineNs))

def errorsOf {ε β : Type} (xs : List (Except ε β)) : List ε := xs.filterMap fun x => match x with | .error e => some e | .ok _ => none

def okOf {ε β : Type} (xs : List (Except ε β)) : List β := xs.filterMap Except.toOption

def recordOf (groupId : ℕ) (domain : String) (released : List Released) : M GroupStartRecord := do
  let s ← get
  let starts := released.map (memberStart s)
  if errorsOf starts ≠ [] then throw (.group ("group " ++ toString groupId ++ " did not start") (errorsOf starts))
  else
    match (okOf starts).find? unstamped with
    | some m => throw (.group ("group " ++ toString groupId ++ ": " ++ m.member ++ " reported no selection stamp") [])
    | none => pure ⟨groupId, domain, okOf starts⟩

/-- `_start`; `rounds` is how often the replies are looked for before the deadline -/
def startMembers (groupId : ℕ) (requests : Dict String TrajectoryRequest) (rounds : ℕ) : M GroupStartRecord := do
  let domains ← joinEach c groupId c.names.zipIdx
  let domain ← domainOf domains
  Effect.each c.names (stageOne c groupId requests)
  let released ← releaseEach c groupId c.names
  checkReleased groupId released
  look c groupId rounds
  recordOf groupId domain released

/-- the text of an exception that a cancel raised -/
def CallError.shown (e : CallError) : String :=
  (match e with
    | .refused _ => "Refused: "
    | .supervisor _ => "SupervisorError: "
    | .timeout _ => "TimeoutError: "
    | .os _ => "OSError: ") ++ e.text

def setError (name : String) (e : CallError) (s : GroupState) : GroupState :=
  { s with cancelErrors := s.cancelErrors.set name (CallError.shown e) }

/-- `errors.setdefault` -/
def setDefaultError (name : String) (e : CallError) (s : GroupState) : GroupState :=
  if (s.cancelErrors.get name).isSome then s else setError name e s

/-- the execution is cancelled again, so that it is terminal -/
def cancelExecution (name : String) : M PUnit := do
  let s ← get
  match s.executions.get name with
  | none => pure ⟨⟩
  | some i => do
    let answered ← attempt name (onWorld (Executions.cancel (c.arms name).env i))
    match answered with
    | .ok _ => pure ⟨⟩
    | .error e => modify (setDefaultError name e)

def cancelOne (groupId : ℕ) (name : String) : M PUnit := do
  modify (GroupState.note (.cancelled name))
  let answered ← attempt name (groupCancel (c.arms name) groupId)
  match answered with
  | .ok _ => cancelExecution c name
  | .error e => do
    modify (setError name e)
    cancelExecution c name

/-- `cancel`: a member that fails does not stop the others -/
def cancel (groupId : ℕ) : M PUnit := Effect.each c.names (cancelOne c groupId)

inductive Started where
  /-- nothing was called -/
  | invalid (e : Failure)
  | record (r : GroupStartRecord)
  /-- the exception, with its `cancel_errors` -/
  | raised (e : Failure) (cancelErrors : Dict String String)

def start (groupId : ℕ) (requests : Dict String TrajectoryRequest) (rounds : ℕ) (members : String → Supervised) :
    Started × GroupState :=
  match validate c requests with
  | some e => (.invalid e, { members := members })
  | none =>
    match startMembers c groupId requests rounds { members := members } with
    | .ok r s => (.record r, s)
    | .error e s => (.raised e (Effect.leaves (cancel c groupId) s).cancelErrors, Effect.leaves (cancel c groupId) s)

end

end ArmControl.MultiArm.GroupStart
