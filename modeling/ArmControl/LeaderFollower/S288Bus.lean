import Mathlib.Data.List.Basic
import Mathlib.Tactic.Linarith
import ArmControl.Lib.Fallible
import ArmControl.Lib.Framing
import ArmControl.Lib.Run
import ArmControl.LeaderFollower.S288Codec

/-!
# The serial bus of the S288 servos (`leader_follower/s288.py`)

* `Line`             what the port does in one exchange: failed writes, the bytes that come, the reads;
* `readResponse`     26 bytes, the header in them, the rest of the frame;
* `exchangeOne`      a command out and the reply stored under the id of the motor;
* `Bus.step`         one call of `write_commands`, `read_states` or `read_arrays`;
* `readResponse_eq`  what is found behind noise;
* `Bus.Kept`         every state was decoded in an exchange with its motor;
* `s288_replies`     which replies are found, and whose they are.
-/

namespace ArmControl.LeaderFollower.S288

open Bytes (Byte slice)

/-! ## one exchange -/

/-- the port in one exchange -/
structure Line where
  /-- writes in a row that raise `SerialException` -/
  failedWrites : ℕ
  /-- what comes in after the last reset of the input -/
  bytes : List Byte
  /-- what each read before the deadline hands over at most -/
  reads : List ℕ

/-- nothing comes -/
def Line.silent : Line := ⟨0, [], []⟩

def Line.reader (line : Line) : Framing.Reader Byte := ⟨[], line.bytes, line.reads⟩

inductive BusError where
  | serial
  | timeout (motorId : ℤ)
  | codec (e : CodecError)
  /-- no state of this motor -/
  | missing (motorId : ℤ)
  deriving DecidableEq

/-- `_read_response` -/
def readResponse (line : Line) : Option (List Byte) :=
  let r := line.reader.fill 26
  match Framing.find headerFb r.got with
  | none => none
  | some idx =>
    let r' := r.fill (idx + 26)
    if r'.got.length < idx + 26 then none else some (slice r'.got idx 26)

/-- an exchange that was made -/
structure Exchanged where
  motorId : ℤ
  sent : List Byte
  line : Line
  result : Except BusError S288State

structure Bus where
  ids : List ℤ
  spec : S288Spec
  writeRetries : ℕ
  lastStates : ℤ → Option S288State
  lastCommand : ℤ → Option S288Command
  /-- the exchanges so far -/
  exchanged : List Exchanged
  /-- what `read_arrays` returned so far: a motor, its angle, its velocity, its absolute angle -/
  returned : List (ℤ × ℚ × ℚ × ℚ)

def Bus.opened (ids : List ℤ) (spec : S288Spec) (writeRetries : ℕ) : Bus where
  ids := ids
  spec := spec
  writeRetries := max 1 writeRetries
  lastStates := fun _ => none
  lastCommand := fun i => if i ∈ ids then some {} else none
  exchanged := []
  returned := []

/-- what the exchange with a motor gives -/
def reply (writeRetries : ℕ) (spec : S288Spec) (motorId : ℤ) (line : Line) : Except BusError S288State :=
  if writeRetries ≤ line.failedWrites then .error .serial
  else
    match readResponse line with
    | none => .error (.timeout motorId)
    | some payload =>
      match unpackState payload spec with
      | .error e => .error (.codec e)
      | .ok st => .ok st

/-- `_exchange_one` -/
def exchangeOne (motorId : ℤ) (command : S288Command) (line : Line) (bus : Bus) : Except BusError Unit × Bus :=
  let frame := packCommand motorId command bus.spec 1 true
  let result := reply bus.writeRetries bus.spec motorId line
  let bus := { bus with exchanged := bus.exchanged ++ [Exchanged.mk motorId frame line result] }
  match result with
  | .error e => (.error e, bus)
  | .ok st => (.ok (), { bus with lastStates := Function.update bus.lastStates motorId (some st) })

/-! ## calls -/

/-- one exchange after the other, until one raises -/
def exchangeAll (pick : ℤ → Bus → S288Command × Bus) : List ℤ → (ℕ → Line) → Bus → Except BusError Unit × Bus
  | [], _, bus => (.ok (), bus)
  | mid :: mids, lines, bus =>
    match exchangeOne mid (pick mid bus).1 (lines 0) (pick mid bus).2 with
    | (.error e, bus) => (.error e, bus)
    | (.ok (), bus) => exchangeAll pick mids (fun n => lines (n + 1)) bus

/-- the new command, or the last one again -/
def newCommand (commands : ℤ → Option S288Command) (mid : ℤ) (bus : Bus) : S288Command × Bus :=
  let cmd := (commands mid).getD ((bus.lastCommand mid).getD {})
  (cmd, { bus with lastCommand := Function.update bus.lastCommand mid (some cmd) })

def oldCommand (mid : ℤ) (bus : Bus) : S288Command × Bus := ((bus.lastCommand mid).getD {}, bus)

def writeCommands (commands : ℤ → Option S288Command) (lines : ℕ → Line) (bus : Bus) : Except BusError Unit × Bus :=
  exchangeAll (newCommand commands) bus.ids lines bus

def readStates (lines : ℕ → Line) (bus : Bus) : Except BusError (ℤ → Option S288State) × Bus :=
  match exchangeAll oldCommand bus.ids lines bus with
  | (.error e, bus) => (.error e, bus)
  | (.ok (), bus) => (.ok bus.lastStates, bus)

/-- one row of the three arrays -/
def row (states : ℤ → Option S288State) (mid : ℤ) : Except BusError (ℤ × ℚ × ℚ × ℚ) :=
  match states mid with
  | none => .error (.missing mid)
  | some st => .ok (mid, st.qOut, st.dqOut, st.exPosRad)

/-- `S288JointChain.read_arrays` of the motors of a chain -/
def readArrays (motorIds : List ℤ) (lines : ℕ → Line) (bus : Bus) : Except BusError (List (ℤ × ℚ × ℚ × ℚ)) × Bus :=
  match readStates lines bus with
  | (.error e, bus) => (.error e, bus)
  | (.ok states, bus) =>
    match motorIds.mapM (row states) with
    | .error e => (.error e, bus)
    | .ok rows => (.ok rows, { bus with returned := bus.returned ++ rows })

inductive Call where
  | writeCommands (commands : ℤ → Option S288Command)
  | readStates
  | readArrays (motorIds : List ℤ)

/-- a call, and what the port does in each of its exchanges -/
def Bus.step (bus : Bus) (call : Call × (ℕ → Line)) : Bus :=
  match call.1 with
  | .writeCommands commands => (S288.writeCommands commands call.2 bus).2
  | .readStates => (S288.readStates call.2 bus).2
  | .readArrays motorIds => (S288.readArrays motorIds call.2 bus).2

/-! ## what is found -/

/-- noise `g` and then a frame: no header before that of the frame -/
def Clean (g f : List Byte) : Prop := ∀ i < g.length, slice (g ++ f) i 2 ≠ headerFb

/-- the deadline does not cut the reading short -/
def Line.InTime (line : Line) : Prop := line.reader.InTime 26 ∧ ∀ idx, (line.reader.fill 26).InTime (idx + 26)

variable {line : Line} {g f rest payload : List Byte} {spec : S288Spec} {st : S288State}

theorem find_header_eq {hay : List Byte} {idx : ℕ} : Framing.find headerFb hay = some idx ↔
    idx + 2 ≤ hay.length ∧ slice hay idx 2 = headerFb ∧ ∀ j < idx, slice hay j 2 ≠ headerFb := by
  have hlen : idx < hay.length + 1 - headerFb.length ↔ idx + 2 ≤ hay.length := by
    show idx < hay.length + 1 - 2 ↔ _
    omega
  rw [Framing.find_eq_some_iff, hlen]
  rfl

/-- the first 26 bytes -/
theorem fill_first (h : line.InTime) (hlong : 26 ≤ line.bytes.length) : (line.reader.fill 26).got = line.bytes.take 26 := by
  have hlen := h.1.length (Nat.zero_le _) hlong
  rw [Framing.Reader.fill_got, hlen]
  rfl

/-- a frame behind noise, in time -/
theorem readResponse_eq (htime : line.InTime) (hbytes : line.bytes = g ++ f ++ rest) (hf : f.length = 26)
    (hheader : slice f 0 2 = headerFb) (hclean : Clean g f) (hg : g.length < 26) :
    readResponse line = if g.length ≤ 24 then some f else none := by
  have hlen : line.bytes.length = g.length + 26 + rest.length := by
    rw [hbytes, List.length_append, List.length_append, hf]
  have hfirst := fill_first htime (by omega)
  have hgot : (line.reader.fill 26).got.length = 26 := by
    rw [hfirst, List.length_take]
    omega
  -- before the frame there is no header
  have hnone : ∀ j < g.length, j + 2 ≤ 26 → slice (line.reader.fill 26).got j 2 ≠ headerFb := by
    intro j hj hfit
    have hwhole : slice line.bytes j 2 = slice (line.bytes.take 26) j 2 := by
      conv_lhs => rw [← List.take_append_drop 26 line.bytes]
      refine slice_before ?_ _
      rw [List.length_take]
      omega
    rw [hfirst, ← hwhole, hbytes, slice_before (by rw [List.length_append]; omega)]
    exact hclean j hj
  unfold readResponse
  by_cases hfit : g.length ≤ 24
  · have hat : slice (line.reader.fill 26).got g.length 2 = headerFb := by
      have hwhole : slice line.bytes g.length 2 = slice (line.bytes.take 26) g.length 2 := by
        conv_lhs => rw [← List.take_append_drop 26 line.bytes]
        refine slice_before ?_ _
        rw [List.length_take]
        omega
      rw [hfirst, ← hwhole, hbytes, List.append_assoc, slice_behind, slice_before (by omega)]
      exact hheader
    have hfind : Framing.find headerFb (line.reader.fill 26).got = some g.length :=
      find_header_eq.mpr ⟨by omega, hat, fun j hj => hnone j hj (by omega)⟩
    have hwhole := Framing.Reader.fill_whole 26 line.reader
    have hall : ((line.reader.fill 26).got ++ (line.reader.fill 26).coming) = line.bytes := hwhole
    have hmore : ((line.reader.fill 26).fill (g.length + 26)).got.length = g.length + 26 :=
      (htime.2 g.length).length (by omega) (by rw [hall]; omega)
    have hsecond : ((line.reader.fill 26).fill (g.length + 26)).got = g ++ f := by
      rw [Framing.Reader.fill_got, hmore, hall, hbytes]
      exact List.take_left' (by rw [List.length_append, hf])
    rw [if_pos hfit]
    dsimp only
    rw [hfind]
    dsimp only
    rw [if_neg (by omega), hsecond, slice_behind, Bytes.slice_all hf]
  · have hfind : Framing.find headerFb (line.reader.fill 26).got = none := by
      rw [Framing.find_eq_none_iff]
      intro j hj
      have hj' : j < 25 := by
        rw [hgot] at hj
        exact hj
      exact hnone j (by omega) (by omega)
    rw [if_neg hfit]
    dsimp only
    rw [hfind]

/-- whatever is found stood behind noise of at most 24 bytes -/
theorem readResponse_some (h : readResponse line = some payload) :
    ∃ g rest, line.bytes = g ++ payload ++ rest ∧ payload.length = 26 ∧ Clean g payload ∧ g.length ≤ 24 := by
  unfold readResponse at h
  have hshort : (line.reader.fill 26).got.length ≤ 26 := Framing.Reader.fill_length (Nat.zero_le _)
  generalize hr : line.reader.fill 26 = r at h hshort
  dsimp only at h
  cases hfind : Framing.find headerFb r.got with
  | none =>
    rw [hfind] at h
    cases h
  | some idx =>
    rw [hfind] at h
    dsimp only at h
    obtain ⟨hidx, -, hfirst⟩ := find_header_eq.mp hfind
    split_ifs at h with hcut
    have hpayload := Option.some.inj h
    have hlen : (r.fill (idx + 26)).got.length = idx + 26 :=
      le_antisymm (Framing.Reader.fill_length (by omega)) (by omega)
    have hwhole : (r.fill (idx + 26)).got ++ (r.fill (idx + 26)).coming = line.bytes := by
      rw [Framing.Reader.fill_whole, ← hr, Framing.Reader.fill_whole]
      rfl
    -- what was got first is the beginning of what was got then
    have hmore : r.got ++ r.coming = line.bytes := by
      rw [← hr, Framing.Reader.fill_whole]
      rfl
    have hdrop : slice (r.fill (idx + 26)).got idx 26 = (r.fill (idx + 26)).got.drop idx := by
      refine List.take_of_length_le ?_
      rw [List.length_drop]
      omega
    have hsplit : (r.fill (idx + 26)).got = (r.fill (idx + 26)).got.take idx ++ payload := by
      rw [← hpayload, hdrop, List.take_append_drop]
    have hg : ((r.fill (idx + 26)).got.take idx).length = idx := by
      rw [List.length_take]
      omega
    refine ⟨(r.fill (idx + 26)).got.take idx, (r.fill (idx + 26)).coming, ?_, ?_, ?_, by omega⟩
    · rw [← hsplit, hwhole]
    · rw [← hpayload]
      exact Bytes.length_slice (by omega)
    · intro i hi
      rw [hg] at hi
      rw [← hsplit, ← slice_before (by omega) (r.fill (idx + 26)).coming, hwhole, ← hmore, slice_before (by omega)]
      exact hfirst i hi

/-! ## whose it is -/

variable {retries : ℕ} {m motorId : ℤ} {bus bus' : Bus} {command : S288Command}

/-- the id in a state is that of the frame -/
theorem unpackState_frame (h : unpackState f spec = .ok st) : slice f 0 2 = headerFb ∧ st.motorId = unsigned f 2 1 % 16 := by
  unfold unpackState at h
  split_ifs at h with hshort hheader
  refine ⟨not_not.mp hheader, ?_⟩
  dsimp only at h
  split_ifs at h
  obtain rfl := Except.ok.inj h
  rfl

theorem reply_eq_ok : reply retries spec motorId line = .ok st ↔
    line.failedWrites < retries ∧ ∃ payload, readResponse line = some payload ∧ unpackState payload spec = .ok st := by
  unfold reply
  split_ifs with hwrites
  · constructor
    · intro h
      cases h
    · rintro ⟨hlt, -⟩
      omega
  · cases hread : readResponse line with
    | none =>
      constructor
      · intro h
        cases h
      · rintro ⟨-, payload, hp, -⟩
        cases hp
    | some payload =>
      dsimp only
      cases hunpack : unpackState payload spec with
      | error e =>
        constructor
        · intro h
          cases h
        · rintro ⟨-, payload', hsome, h⟩
          obtain rfl := Option.some.inj hsome
          rw [hunpack] at h
          cases h
      | ok st' =>
        constructor
        · intro h
          obtain rfl := Except.ok.inj h
          exact ⟨by omega, payload, rfl, hunpack⟩
        · rintro ⟨-, payload', hsome, h⟩
          obtain rfl := Option.some.inj hsome
          rw [hunpack] at h
          obtain rfl := Except.ok.inj h
          rfl

theorem exchangeOne_error {e : BusError} (h : reply bus.writeRetries bus.spec motorId line = .error e) (command : S288Command) :
    exchangeOne motorId command line bus =
      (.error e, { bus with exchanged := bus.exchanged ++
        [Exchanged.mk motorId (packCommand motorId command bus.spec 1 true) line (.error e)] }) := by
  unfold exchangeOne
  rw [h]

theorem exchangeOne_ok (h : reply bus.writeRetries bus.spec motorId line = .ok st) (command : S288Command) :
    exchangeOne motorId command line bus =
      (.ok (), { bus with
        exchanged := bus.exchanged ++ [Exchanged.mk motorId (packCommand motorId command bus.spec 1 true) line (.ok st)]
        lastStates := Function.update bus.lastStates motorId (some st) }) := by
  unfold exchangeOne
  rw [h]

/-- a state that an exchange with its motor gave -/
def Given (xs : List Exchanged) (m : ℤ) (st : S288State) : Prop := ∃ x ∈ xs, x.motorId = m ∧ x.result = .ok st

theorem Given.snoc {xs : List Exchanged} (h : Given xs m st) (x : Exchanged) : Given (xs ++ [x]) m st := by
  obtain ⟨y, hy, hm, hst⟩ := h
  exact ⟨y, List.mem_append_left _ hy, hm, hst⟩

/-- every state was decoded in an exchange with its motor -/
structure Bus.Kept (spec : S288Spec) (retries : ℕ) (bus : Bus) : Prop where
  spec_eq : bus.spec = spec
  retries_eq : bus.writeRetries = retries
  told : ∀ x ∈ bus.exchanged, x.result = reply retries spec x.motorId x.line
  states : ∀ m st, bus.lastStates m = some st → Given bus.exchanged m st
  rows : ∀ p ∈ bus.returned, ∃ st, Given bus.exchanged p.1 st ∧ p.2 = (st.qOut, st.dqOut, st.exPosRad)

theorem Bus.Kept.opened (ids : List ℤ) (spec : S288Spec) (writeRetries : ℕ) :
    (Bus.opened ids spec writeRetries).Kept spec (max 1 writeRetries) where
  spec_eq := rfl
  retries_eq := rfl
  told := fun _ hx => absurd hx List.not_mem_nil
  states := fun _ _ h => by cases h
  rows := fun _ hp => absurd hp List.not_mem_nil

/-- another exchange, its reply not stored yet -/
theorem Bus.Kept.asked (h : bus.Kept spec retries) {x : Exchanged} (hx : x.result = reply retries spec x.motorId x.line) :
    Bus.Kept spec retries { bus with exchanged := bus.exchanged ++ [x] } where
  spec_eq := h.spec_eq
  retries_eq := h.retries_eq
  told := by
    intro y hy
    rcases List.mem_append.mp hy with hy | hy
    · exact h.told y hy
    · obtain rfl := List.mem_singleton.mp hy
      exact hx
  states := fun m st hst => (h.states m st hst).snoc x
  rows := by
    intro p hp
    obtain ⟨st, hst, heq⟩ := h.rows p hp
    exact ⟨st, hst.snoc x, heq⟩

theorem Bus.Kept.stored (h : bus.Kept spec retries) (hgiven : Given bus.exchanged motorId st) :
    Bus.Kept spec retries { bus with lastStates := Function.update bus.lastStates motorId (some st) } where
  spec_eq := h.spec_eq
  retries_eq := h.retries_eq
  told := h.told
  states := by
    intro m st' hst
    change Function.update bus.lastStates motorId (some st) m = some st' at hst
    rcases eq_or_ne m motorId with rfl | hne
    · rw [Function.update_self] at hst
      obtain rfl := Option.some.inj hst
      exact hgiven
    · rw [Function.update_of_ne hne] at hst
      exact h.states m st' hst
  rows := h.rows

theorem Bus.Kept.exchangeOne (h : bus.Kept spec retries) (motorId : ℤ) (command : S288Command) (line : Line) :
    (exchangeOne motorId command line bus).2.Kept spec retries := by
  have hreply : reply bus.writeRetries bus.spec motorId line = reply retries spec motorId line := by rw [h.spec_eq, h.retries_eq]
  cases hresult : reply bus.writeRetries bus.spec motorId line with
  | error e =>
    rw [exchangeOne_error hresult]
    exact h.asked (hresult.symm.trans hreply)
  | ok st =>
    rw [exchangeOne_ok hresult]
    exact (h.asked (x := Exchanged.mk motorId _ line (.ok st)) (hresult.symm.trans hreply)).stored
      ⟨_, List.mem_append_right _ (List.mem_singleton.mpr rfl), rfl, rfl⟩

theorem Bus.Kept.exchangeAll {pick : ℤ → Bus → S288Command × Bus}
    (hpick : ∀ mid bus, bus.Kept spec retries → (pick mid bus).2.Kept spec retries) (mids : List ℤ) (lines : ℕ → Line)
    (h : bus.Kept spec retries) : (exchangeAll pick mids lines bus).2.Kept spec retries := by
  induction mids generalizing lines bus with
  | nil => exact h
  | cons mid mids ih =>
    have hone := (hpick mid bus h).exchangeOne mid (pick mid bus).1 (lines 0)
    unfold S288.exchangeAll
    generalize S288.exchangeOne mid (pick mid bus).1 (lines 0) (pick mid bus).2 = r at hone
    obtain ⟨e | _, bus₁⟩ := r
    · exact hone
    · exact ih _ hone

theorem Bus.Kept.commanded (h : bus.Kept spec retries) (last : ℤ → Option S288Command) :
    Bus.Kept spec retries { bus with lastCommand := last } := ⟨h.spec_eq, h.retries_eq, h.told, h.states, h.rows⟩

theorem Bus.Kept.readStates (h : bus.Kept spec retries) (lines : ℕ → Line) :
    (readStates lines bus).2.Kept spec retries ∧ ∀ states, (readStates lines bus).1 = .ok states →
      states = (readStates lines bus).2.lastStates := by
  have hall : (S288.exchangeAll oldCommand bus.ids lines bus).2.Kept spec retries :=
    Bus.Kept.exchangeAll (fun _ _ hbus => hbus) bus.ids lines h
  unfold S288.readStates
  generalize S288.exchangeAll oldCommand bus.ids lines bus = r at hall
  obtain ⟨e | _, bus₁⟩ := r
  · exact ⟨hall, fun _ hstates => by cases hstates⟩
  · exact ⟨hall, fun _ hstates => (Except.ok.inj hstates).symm⟩

theorem row_eq_ok {states : ℤ → Option S288State} {mid : ℤ} {p : ℤ × ℚ × ℚ × ℚ} (h : row states mid = .ok p) :
    ∃ st, states mid = some st ∧ p = (mid, st.qOut, st.dqOut, st.exPosRad) := by
  unfold row at h
  cases hst : states mid with
  | none =>
    rw [hst] at h
    cases h
  | some st =>
    rw [hst] at h
    exact ⟨st, rfl, (Except.ok.inj h).symm⟩

theorem Bus.Kept.readArrays (h : bus.Kept spec retries) (motorIds : List ℤ) (lines : ℕ → Line) :
    (readArrays motorIds lines bus).2.Kept spec retries := by
  obtain ⟨hkept, hstates⟩ := h.readStates lines
  unfold S288.readArrays
  generalize S288.readStates lines bus = r at hkept hstates
  obtain ⟨e | states, bus₁⟩ := r
  · exact hkept
  · have heq : states = bus₁.lastStates := hstates states rfl
    dsimp only
    cases hrows : motorIds.mapM (row states) with
    | error e => exact hkept
    | ok rows =>
      refine ⟨hkept.spec_eq, hkept.retries_eq, hkept.told, hkept.states, fun p hp => ?_⟩
      rcases List.mem_append.mp hp with hp | hp
      · exact hkept.rows p hp
      · obtain ⟨mid, -, hrow⟩ := Except.source_of_mem hrows hp
        obtain ⟨st, hst, rfl⟩ := row_eq_ok hrow
        rw [heq] at hst
        exact ⟨st, hkept.states mid st hst, rfl⟩

theorem Bus.Kept.step (h : bus.Kept spec retries) (call : Call × (ℕ → Line)) : (bus.step call).Kept spec retries := by
  obtain ⟨call, lines⟩ := call
  cases call with
  | writeCommands commands =>
    show (S288.exchangeAll (newCommand commands) bus.ids lines bus).2.Kept spec retries
    exact Bus.Kept.exchangeAll (fun _ _ hbus => hbus.commanded _) bus.ids lines h
  | readStates => exact (h.readStates lines).1
  | readArrays motorIds => exact h.readArrays motorIds lines

theorem Bus.Kept.run (ids : List ℤ) (spec : S288Spec) (writeRetries : ℕ) (calls : List (Call × (ℕ → Line))) :
    (Run.run Bus.step (Bus.opened ids spec writeRetries) calls).Kept spec (max 1 writeRetries) :=
  Run.invariant (C := fun _ _ => True) (Bus.Kept.opened ids spec writeRetries) (fun _ call _ h => h.step call)
    (Run.along_of_forall (fun _ _ => trivial) calls)

/-! ## replies -/

/-- a frame of the motor behind noise, in time after the command was written -/
structure Replied (writeRetries : ℕ) (spec : S288Spec) (line : Line) (g f : List Byte) (st : S288State) : Prop where
  written : line.failedWrites < writeRetries
  inTime : line.InTime
  received : ∃ rest, line.bytes = g ++ f ++ rest
  length : f.length = 26
  valid : unpackState f spec = .ok st
  clean : Clean g f
  short : g.length < 26

/-- no valid frame of another motor stands before one of the motor -/
def Own (spec : S288Spec) (m : ℤ) (line : Line) : Prop :=
  ∀ g f rest, line.bytes = g ++ f ++ rest → f.length = 26 → (∃ st, unpackState f spec = .ok st) → Clean g f → g.length ≤ 24 →
    unsigned f 2 1 % 16 = m % 16

/-- decoded from a valid frame with the id of the motor, which came in an exchange with it -/
def FromMotor (bus : Bus) (m : ℤ) (st : S288State) : Prop :=
  ∃ x ∈ bus.exchanged, x.motorId = m ∧ ∃ f, f <:+: x.line.bytes ∧ f.length = 26 ∧ unpackState f bus.spec = .ok st ∧
    unsigned f 2 1 % 16 = m % 16

/-- the noise must leave room for the header in the first 26 bytes -/
theorem Replied.stored_iff (h : Replied bus.writeRetries bus.spec line g f st) (m : ℤ) (command : S288Command) :
    (exchangeOne m command line bus).1 = .ok () ∧ (exchangeOne m command line bus).2.lastStates m = some st ↔ g.length ≤ 24 := by
  obtain ⟨rest, hbytes⟩ := h.received
  have hread := readResponse_eq h.inTime hbytes h.length (unpackState_frame h.valid).1 h.clean h.short
  split_ifs at hread with hfit
  · have hreply : reply bus.writeRetries bus.spec m line = .ok st := reply_eq_ok.mpr ⟨h.written, f, hread, h.valid⟩
    rw [exchangeOne_ok hreply]
    exact ⟨fun _ => hfit, fun _ => ⟨rfl, Function.update_self ..⟩⟩
  · have hreply : reply bus.writeRetries bus.spec m line = .error (.timeout m) := by
      unfold reply
      rw [if_neg (by have := h.written; omega), hread]
    rw [exchangeOne_error hreply]
    constructor
    · rintro ⟨hok, -⟩
      cases hok
    · intro hle
      exact absurd hle hfit

/-- the frame of an exchange -/
theorem Own.frame (h : Own spec m line) (hreply : reply retries spec m line = .ok st) :
    ∃ f, f <:+: line.bytes ∧ f.length = 26 ∧ unpackState f spec = .ok st ∧ unsigned f 2 1 % 16 = m % 16 := by
  obtain ⟨-, f, hread, hvalid⟩ := reply_eq_ok.mp hreply
  obtain ⟨g, rest, hbytes, hlen, hclean, hfit⟩ := readResponse_some hread
  exact ⟨f, ⟨g, rest, hbytes.symm⟩, hlen, hvalid, h g f rest hbytes hlen ⟨st, hvalid⟩ hclean hfit⟩

/-- the condition is needed: in time, a foreign frame is stored -/
theorem own_iff (hwritten : line.failedWrites < retries) (htime : line.InTime) :
    Own spec m line ↔ ∀ st, reply retries spec m line = .ok st → st.motorId = m % 16 := by
  constructor
  · intro hown st hreply
    obtain ⟨f, -, -, hvalid, hid⟩ := hown.frame hreply
    rw [(unpackState_frame hvalid).2, hid]
  · rintro hall g f rest hbytes hlen ⟨st, hvalid⟩ hclean hfit
    have hread := readResponse_eq htime hbytes hlen (unpackState_frame hvalid).1 hclean (by omega)
    rw [if_pos hfit] at hread
    rw [← (unpackState_frame hvalid).2]
    exact hall st (reply_eq_ok.mpr ⟨hwritten, f, hread, hvalid⟩)

theorem Bus.Kept.fromMotor (h : bus.Kept spec retries) (hown : ∀ x ∈ bus.exchanged, Own spec x.motorId x.line)
    (hgiven : Given bus.exchanged m st) : FromMotor bus m st := by
  obtain ⟨x, hx, rfl, hresult⟩ := hgiven
  rw [h.told x hx] at hresult
  obtain ⟨f, hin, hlen, hvalid, hid⟩ := (hown x hx).frame hresult
  rw [← h.spec_eq] at hvalid
  exact ⟨x, hx, rfl, f, hin, hlen, hvalid, hid⟩

/-- **Which replies are found, and whose they are.** -/
theorem s288_replies (ids : List ℤ) (spec : S288Spec) (writeRetries : ℕ) (calls : List (Call × (ℕ → Line))) :
    -- a reply is found when the noise before it has at most 24 bytes
    (∀ (bus : Bus) (m : ℤ) (command : S288Command) (line : Line) (g f : List Byte) (st : S288State),
      Replied bus.writeRetries bus.spec line g f st →
        ((exchangeOne m command line bus).1 = .ok () ∧ (exchangeOne m command line bus).2.lastStates m = some st ↔
          g.length ≤ 24)) ∧
    -- it is that of the motor when no other one answers
    (∀ (bus : Bus) (m : ℤ) (line : Line), line.failedWrites < bus.writeRetries → line.InTime →
      (Own bus.spec m line ↔ ∀ st, reply bus.writeRetries bus.spec m line = .ok st → st.motorId = m % 16)) ∧
    ∀ bus, bus = Run.run Bus.step (Bus.opened ids spec writeRetries) calls →
      (∀ x ∈ bus.exchanged, Own spec x.motorId x.line) →
        (∀ m st, bus.lastStates m = some st → FromMotor bus m st) ∧
        ∀ p ∈ bus.returned, ∃ st, FromMotor bus p.1 st ∧ p.2 = (st.qOut, st.dqOut, st.exPosRad) := by
  refine ⟨fun bus m command line g f st h => h.stored_iff m command, fun bus m line => own_iff, ?_⟩
  rintro bus rfl hown
  have hkept := Bus.Kept.run ids spec writeRetries calls
  refine ⟨fun m st hst => hkept.fromMotor hown (hkept.states m st hst), fun p hp => ?_⟩
  obtain ⟨st, hgiven, hp⟩ := hkept.rows p hp
  exact ⟨st, hkept.fromMotor hown hgiven, hp⟩

/-! ## a bench -/

/-- the reply of motor 1 -/
def benchFrame : List Byte := [0xFC, 0xEE, 0x91] ++ List.replicate 19 0 ++ [0xD4, 0x08, 0xD4, 0xE2]

theorem benchFrame_valid : ∃ st, unpackState benchFrame {} = .ok st :=
  (unpackState_isOk_iff rfl {}).mpr (by decide +kernel)

/-- its command, which the bus gives back -/
def benchEcho : List Byte := [0xFE, 0xEE, 0x91] ++ List.replicate 13 0 ++ [0x9C, 0xE9, 0xC7, 0x52]

example : packCommand 1 {} {} 1 true = benchEcho := by decide +kernel

def benchLine : Line where
  failedWrites := 1
  bytes := benchEcho ++ benchFrame
  reads := [26, 20]

theorem benchLine_inTime : benchLine.InTime :=
  ⟨.inl (by decide +kernel), fun _ => Framing.Reader.inTime_single (n := 20) (by decide +kernel) (by decide +kernel) _⟩

theorem benchLine_own : Own {} 1 benchLine := by
  rintro g f rest hbytes hlen ⟨st, hvalid⟩ - hfit
  have hheader := (unpackState_frame hvalid).1
  have hat : slice benchLine.bytes g.length 2 = headerFb := by
    rw [hbytes, List.append_assoc, slice_behind, slice_before (by omega)]
    exact hheader
  have hf : slice benchLine.bytes g.length 26 = f := by
    rw [hbytes, List.append_assoc, slice_behind, slice_before (by omega)]
    exact Bytes.slice_all hlen
  have honly : ∀ i < 25, slice benchLine.bytes i 2 = headerFb → i = 20 := by decide +kernel
  rw [← hf, honly g.length (by omega) hat]
  decide +kernel

/-- one motor on the bus -/
theorem exchangeAll_single (pick : ℤ → Bus → S288Command × Bus) (mid : ℤ) (lines : ℕ → Line) (bus : Bus) :
    (exchangeAll pick [mid] lines bus).2 = (exchangeOne mid (pick mid bus).1 (lines 0) (pick mid bus).2).2 := by
  unfold exchangeAll
  generalize exchangeOne mid (pick mid bus).1 (lines 0) (pick mid bus).2 = r
  obtain ⟨e | _, bus₁⟩ := r
  · rfl
  · rfl

theorem readStates_bus (lines : ℕ → Line) (bus : Bus) : (readStates lines bus).2 = (exchangeAll oldCommand bus.ids lines bus).2 := by
  unfold readStates
  generalize exchangeAll oldCommand bus.ids lines bus = r
  obtain ⟨e | _, bus₁⟩ := r
  · rfl
  · rfl

theorem exchanged_of_one {lines : ℕ → Line} {mid : ℤ} (h : bus.ids = [mid]) {x : Exchanged} (hx : x ∈ (readStates lines bus).2.exchanged) :
    x ∈ bus.exchanged ∨ x.motorId = mid ∧ x.line = lines 0 := by
  rw [readStates_bus, h, exchangeAll_single] at hx
  change x ∈ (exchangeOne mid _ (lines 0) bus).2.exchanged at hx
  cases hreply : reply bus.writeRetries bus.spec mid (lines 0) with
  | error e =>
    rw [exchangeOne_error hreply] at hx
    rcases List.mem_append.mp hx with hx | hx
    · exact .inl hx
    · obtain rfl := List.mem_singleton.mp hx
      exact .inr ⟨rfl, rfl⟩
  | ok st =>
    rw [exchangeOne_ok hreply] at hx
    rcases List.mem_append.mp hx with hx | hx
    · exact .inl hx
    · obtain rfl := List.mem_singleton.mp hx
      exact .inr ⟨rfl, rfl⟩

theorem s288_replies_bench : ∃ st, unpackState benchFrame {} = .ok st ∧
    (exchangeOne 1 {} benchLine (Bus.opened [1] {} 4)).2.lastStates 1 = some st ∧
    ∀ m st', (Run.run Bus.step (Bus.opened [1] {} 4) [(.readStates, fun _ => benchLine)]).lastStates m = some st' →
      FromMotor (Run.run Bus.step (Bus.opened [1] {} 4) [(.readStates, fun _ => benchLine)]) m st' := by
  obtain ⟨st, hst⟩ := benchFrame_valid
  obtain ⟨hfound, -, howned⟩ := s288_replies [1] {} 4 [(.readStates, fun _ => benchLine)]
  have hreplied : Replied 4 {} benchLine benchEcho benchFrame st :=
    ⟨by decide, benchLine_inTime, ⟨[], (List.append_nil _).symm⟩, rfl, hst, by unfold Clean; decide +kernel, by decide⟩
  refine ⟨st, hst, ((hfound (Bus.opened [1] {} 4) 1 {} benchLine _ _ st hreplied).mpr (by decide)).2, (howned _ rfl ?_).1⟩
  intro x hx
  rcases exchanged_of_one (show (Bus.opened [1] {} 4).ids = [1] from rfl) hx with hx | ⟨hm, hline⟩
  · exact absurd hx List.not_mem_nil
  · rw [hm, hline]
    exact benchLine_own

/-- 25 bytes of noise lose a reply, and a late reply of motor 1 is stored as one of motor 2 -/
theorem replies_lost_and_mixed :
    (∃ (line : Line) (st : S288State), Replied 4 {} line (List.replicate 25 0) benchFrame st ∧
      (exchangeOne 1 {} line (Bus.opened [1] {} 4)).1 = .error (.timeout 1)) ∧
    ∃ (line : Line) (st : S288State), (exchangeOne 2 {} line (Bus.opened [2] {} 4)).2.lastStates 2 = some st ∧
      ¬ FromMotor (exchangeOne 2 {} line (Bus.opened [2] {} 4)).2 2 st := by
  obtain ⟨st, hst⟩ := benchFrame_valid
  constructor
  · let line : Line := ⟨0, List.replicate 25 0 ++ benchFrame, [26, 25]⟩
    have hreplied : Replied 4 {} line (List.replicate 25 0) benchFrame st :=
      ⟨by decide, ⟨.inl (by decide +kernel), fun _ => Framing.Reader.inTime_single (n := 25) (by decide +kernel) (by decide +kernel) _⟩,
        ⟨[], (List.append_nil _).symm⟩, rfl, hst, by unfold Clean; decide +kernel, by decide⟩
    refine ⟨line, st, hreplied, ?_⟩
    have hread := readResponse_eq hreplied.inTime (List.append_nil (List.replicate 25 0 ++ benchFrame)).symm rfl rfl hreplied.clean hreplied.short
    have hreply : reply (Bus.opened [1] {} 4).writeRetries (Bus.opened [1] {} 4).spec 1 line = .error (.timeout 1) := by
      show reply 4 {} 1 line = .error (.timeout 1)
      unfold reply
      rw [hread]
      rfl
    rw [exchangeOne_error hreply]
  · let line : Line := ⟨0, benchFrame, [26]⟩
    have htime : line.InTime :=
      ⟨.inl (by decide +kernel), fun _ => .inr (by unfold Framing.Reader.fill; rfl)⟩
    have hread := readResponse_eq (g := []) htime (List.append_nil benchFrame).symm rfl rfl (fun _ hi => absurd hi (Nat.not_lt_zero _)) (by decide)
    have hreply : reply (Bus.opened [2] {} 4).writeRetries (Bus.opened [2] {} 4).spec 2 line = .ok st :=
      reply_eq_ok.mpr ⟨by decide, _, hread, hst⟩
    refine ⟨line, st, ?_, ?_⟩
    · rw [exchangeOne_ok hreply]
      show Function.update (Bus.opened [2] {} 4).lastStates 2 (some st) 2 = some st
      rw [Function.update_self]
    · rintro ⟨x, -, -, f, -, -, hvalid, hid⟩
      rw [exchangeOne_ok hreply] at hvalid
      have hone : st.motorId = 1 := by
        rw [(unpackState_frame hst).2]
        decide +kernel
      have htwo : st.motorId = 2 % 16 := by
        rw [(unpackState_frame hvalid).2, hid]
      rw [hone] at htwo
      exact absurd htwo (by decide)

end ArmControl.LeaderFollower.S288
