import ArmControl.Lib.Run
import ArmControl.Lib.Wrap

/-!
# The command counter (`remote_rt/client.py`)

`apply_command` runs on the supervisor's thread and `apply_reference_envelope` on the sender's, and nothing keeps
them apart: each reads `_cmd_seq`, writes it back plus one, reads it again to pack the packet, sends, and reads it a
last time to return it.  A step is one of these accesses, within one ARM epoch.

* `CommandPc`, `step`  where a call is, and its accesses;
* `Fresh`             a call finds the counter as it left it: the other thread has not written it meanwhile;
* `Numbered`, `Inv`   what the numbers taken so far are;
* `sequence_numbers`  in runs of such steps every packet has its own number, and a call returns its packet's.
-/

namespace ArmControl.RemoteRt

inductive Caller where
  /-- `apply_command` -/
  | supervisor
  /-- `apply_reference_envelope` -/
  | envelope
  deriving DecidableEq

/-- where a call is, with what it read or wrote -/
inductive CommandPc where
  | idle
  | counted (old : BitVec 32)
  | stored (own : BitVec 32)
  | packed (seq : BitVec 32)
  | sent (seq : BitVec 32)
  deriving DecidableEq

/-- what a call has read, to write it back plus one -/
def CommandPc.read : CommandPc → Option (BitVec 32)
  | .counted x => some x
  | _ => none

/-- what a call has written, to pack it -/
def CommandPc.written : CommandPc → Option (BitVec 32)
  | .stored x => some x
  | _ => none

/-- what a call has sent, to return it -/
def CommandPc.carried : CommandPc → Option (BitVec 32)
  | .sent x => some x
  | _ => none

/-- the number a call has taken and not yet put on the wire -/
def CommandPc.own : CommandPc → Option (BitVec 32)
  | .stored x | .packed x => some x
  | _ => none

structure CommandSeq where
  cmdSeq : BitVec 32 := 0
  pc : Caller → CommandPc := fun _ => .idle
  /-- the numbers of the packets put on the wire -/
  wire : List (BitVec 32) := []
  /-- what the calls returned, after the number of the packet that each sent -/
  returned : List (BitVec 32 × BitVec 32) := []
  /-- how many commands were numbered in this epoch -/
  commands : ℕ := 0

namespace CommandSeq

inductive Event where
  | count (c : Caller)
  | store (c : Caller)
  | expire
  | pack (c : Caller)
  | send (c : Caller) (ok : Bool)
  | finish (c : Caller)

def goto (s : CommandSeq) (c : Caller) (p : CommandPc) : CommandSeq := { s with pc := Function.update s.pc c p }

/-- the read of `self._cmd_seq + 1` -/
def count (s : CommandSeq) (c : Caller) : CommandSeq :=
  match s.pc c with
  | .idle => s.goto c (.counted s.cmdSeq)
  | _ => s

def store (s : CommandSeq) (c : Caller) : CommandSeq :=
  match s.pc c with
  | .counted old => { s with cmdSeq := old + 1, commands := s.commands + 1 }.goto c (.stored (old + 1))
  | _ => s

/-- the decision is too old: `None`, and no packet -/
def expire (s : CommandSeq) : CommandSeq :=
  match s.pc .envelope with
  | .stored _ => s.goto .envelope .idle
  | _ => s

def pack (s : CommandSeq) (c : Caller) : CommandSeq :=
  match s.pc c with
  | .stored _ => s.goto c (.packed s.cmdSeq)
  | _ => s

/-- on the wire, or closed or failed: `None` -/
def send (s : CommandSeq) (c : Caller) (ok : Bool) : CommandSeq :=
  match s.pc c with
  | .packed seq => if ok then { s with wire := s.wire ++ [seq] }.goto c (.sent seq) else s.goto c .idle
  | _ => s

/-- the read of what it returns -/
def finish (s : CommandSeq) (c : Caller) : CommandSeq :=
  match s.pc c with
  | .sent seq => { s with returned := s.returned ++ [(seq, s.cmdSeq)] }.goto c .idle
  | _ => s

def step (s : CommandSeq) : Event → CommandSeq
  | .count c => s.count c
  | .store c => s.store c
  | .expire => s.expire
  | .pack c => s.pack c
  | .send c ok => s.send c ok
  | .finish c => s.finish c

/-- the counter is what this call left there -/
def Fresh (s : CommandSeq) : Event → Prop
  | .store c => ∀ x ∈ (s.pc c).read, s.cmdSeq = x
  | .pack c => ∀ x ∈ (s.pc c).written, s.cmdSeq = x
  | .finish c => ∀ x ∈ (s.pc c).carried, s.cmdSeq = x
  | _ => True

instance (s : CommandSeq) : ∀ e, Decidable (s.Fresh e)
  | .store c => inferInstanceAs (Decidable (∀ x ∈ (s.pc c).read, s.cmdSeq = x))
  | .pack c => inferInstanceAs (Decidable (∀ x ∈ (s.pc c).written, s.cmdSeq = x))
  | .finish c => inferInstanceAs (Decidable (∀ x ∈ (s.pc c).carried, s.cmdSeq = x))
  | .count _ | .expire | .send .. => isTrue trivial

/-- packets of different numbers, and true answers -/
def Truthful (s : CommandSeq) : Prop := s.wire.Nodup ∧ ∀ r ∈ s.returned, r.2 = r.1

instance (s : CommandSeq) : Decidable s.Truthful := @instDecidableAnd _ _ inferInstance (List.decidableBAll _ s.returned)

/-! ## the invariant -/

/-- one of the numbers taken so far -/
def Numbered (start n : ℕ) (x : BitVec 32) : Prop := ∃ i, 0 < i ∧ i ≤ n ∧ x = BitVec.ofNat 32 (start + i)

structure Inv (start : ℕ) (s : CommandSeq) : Prop where
  counter : s.cmdSeq = BitVec.ofNat 32 (start + s.commands)
  wire : ∀ x ∈ s.wire, Numbered start s.commands x
  own : ∀ c x, CommandPc.own (s.pc c) = some x → Numbered start s.commands x ∧ x ∉ s.wire
  apart : ∀ c c' x, CommandPc.own (s.pc c) = some x → CommandPc.own (s.pc c') = some x → c = c'
  truthful : s.Truthful

section
variable {start n : ℕ} {s : CommandSeq} {x : BitVec 32} {c : Caller} {p : CommandPc}

theorem Numbered.succ (h : Numbered start n x) : Numbered start (n + 1) x := by
  obtain ⟨i, hpos, hle, hx⟩ := h
  exact ⟨i, hpos, hle.trans n.le_succ, hx⟩

/-- the next number has not been taken -/
theorem next_new (hn : n < 2 ^ 31) : ¬ Numbered start n (BitVec.ofNat 32 (start + (n + 1))) := by
  rintro ⟨i, -, hle, hx⟩
  exact Wrap.wrap_ne (by omega) (by omega) hx.symm

theorem own_goto {d : Caller} (h : CommandPc.own ((s.goto c p).pc d) = some x) :
    (d = c ∧ CommandPc.own p = some x) ∨ (d ≠ c ∧ CommandPc.own (s.pc d) = some x) := by
  change CommandPc.own (Function.update s.pc c p d) = some x at h
  by_cases hd : d = c
  · subst hd
    rw [Function.update_self] at h
    exact .inl ⟨rfl, h⟩
  · rw [Function.update_of_ne hd] at h
    exact .inr ⟨hd, h⟩

/-- a call moves on; a number that it holds then is its own -/
theorem Inv.goto (h : Inv start s)
    (hp : ∀ x, CommandPc.own p = some x → Numbered start s.commands x ∧ x ∉ s.wire ∧ ∀ d ≠ c, CommandPc.own (s.pc d) ≠ some x) :
    Inv start (s.goto c p) := by
  refine ⟨h.counter, h.wire, fun d x hx => ?_, fun d d' x hx hx' => ?_, h.truthful⟩
  · rcases own_goto hx with ⟨-, hnew⟩ | ⟨-, hold⟩
    · exact ⟨(hp x hnew).1, (hp x hnew).2.1⟩
    · exact h.own d x hold
  · rcases own_goto hx with ⟨rfl, hnew⟩ | ⟨hne, hold⟩
    · rcases own_goto hx' with ⟨rfl, -⟩ | ⟨hne', hold'⟩
      · rfl
      · exact absurd hold' ((hp x hnew).2.2 d' hne')
    · rcases own_goto hx' with ⟨rfl, hnew'⟩ | ⟨-, hold'⟩
      · exact absurd hold ((hp x hnew').2.2 d hne)
      · exact h.apart d d' x hold hold'

/-- a call that holds no number any more -/
theorem Inv.leave (h : Inv start s) (hp : CommandPc.own p = none) : Inv start (s.goto c p) :=
  h.goto fun _ hx => absurd (hp.symm.trans hx) nofun

/-- the counter is written, plus one -/
theorem Inv.bump (h : Inv start s) :
    Inv start { s with cmdSeq := s.cmdSeq + 1, commands := s.commands + 1 } := by
  refine ⟨?_, fun x hx => (h.wire x hx).succ, fun d x hx => ⟨(h.own d x hx).1.succ, (h.own d x hx).2⟩, h.apart, h.truthful⟩
  show s.cmdSeq + 1 = _
  rw [h.counter, Wrap.wrap_succ, Nat.add_assoc]

theorem Inv.store (h : Inv start s) (hn : s.commands < 2 ^ 31) :
    Inv start ({ s with cmdSeq := s.cmdSeq + 1, commands := s.commands + 1 }.goto c (.stored (s.cmdSeq + 1))) := by
  have hval : s.cmdSeq + 1 = BitVec.ofNat 32 (start + (s.commands + 1)) := h.bump.counter
  have hnew : ¬ Numbered start s.commands (s.cmdSeq + 1) := by
    rw [hval]
    exact next_new hn
  refine h.bump.goto fun x hx => ?_
  obtain rfl : s.cmdSeq + 1 = x := Option.some.inj hx
  exact ⟨⟨s.commands + 1, Nat.succ_pos _, le_rfl, hval⟩, fun hmem => hnew (h.wire _ hmem),
    fun d _ hown => hnew (h.own d _ hown).1⟩

/-- a packet goes out under the call's own number -/
theorem Inv.sent (h : Inv start s) (hx : CommandPc.own (s.pc c) = some x) :
    Inv start ({ s with wire := s.wire ++ [x] }.goto c (.sent x)) := by
  have hleft : Inv start (s.goto c (.sent x)) := h.leave rfl
  obtain ⟨hnum, hnew⟩ := h.own c x hx
  refine ⟨hleft.counter, fun y hy => ?_, fun d y hy => ⟨(hleft.own d y hy).1, fun hmem => ?_⟩, hleft.apart, ?_, h.truthful.2⟩
  · rcases List.mem_append.mp hy with hold | hlast
    · exact h.wire y hold
    · rwa [List.mem_singleton.mp hlast]
  · rcases List.mem_append.mp hmem with hold | hlast
    · exact (hleft.own d y hy).2 hold
    · rcases own_goto hy with ⟨-, hnone⟩ | ⟨hne, hown⟩
      · cases hnone
      · rw [List.mem_singleton.mp hlast] at hown
        exact hne (h.apart d c x hown hx)
  · exact List.nodup_append.mpr ⟨h.truthful.1, List.nodup_cons.mpr ⟨List.not_mem_nil, List.nodup_nil⟩, fun y hy z hz => by
      rw [List.mem_singleton.mp hz]
      rintro rfl
      exact hnew hy⟩

/-- a call returns the number of its packet -/
theorem Inv.finish (h : Inv start s) :
    Inv start ({ s with returned := s.returned ++ [(s.cmdSeq, s.cmdSeq)] }.goto c .idle) := by
  have hleft : Inv start (s.goto c .idle) := h.leave rfl
  refine ⟨hleft.counter, hleft.wire, hleft.own, hleft.apart, h.truthful.1, fun r hr => ?_⟩
  rcases List.mem_append.mp hr with hold | hlast
  · exact h.truthful.2 r hold
  · rw [List.mem_singleton.mp hlast]

/-- **One access** of a call that finds the counter as it left it -/
theorem Inv.step {e : Event} (h : Inv start s) (hf : s.Fresh e) (hn : s.commands < 2 ^ 31) : Inv start (s.step e) := by
  cases e with
  | count c =>
    show Inv start (s.count c)
    unfold CommandSeq.count
    split
    · exact h.leave rfl
    · exact h
  | store c =>
    show Inv start (s.store c)
    unfold CommandSeq.store
    split
    · next old hc =>
      obtain rfl := hf old (by rw [hc]; rfl)
      exact h.store hn
    · exact h
  | expire =>
    show Inv start s.expire
    unfold CommandSeq.expire
    split
    · exact h.leave rfl
    · exact h
  | pack c =>
    show Inv start (s.pack c)
    unfold CommandSeq.pack
    split
    · next own hc =>
      have hown : CommandPc.own (s.pc c) = some own := by rw [hc]; rfl
      obtain rfl := hf own (by rw [hc]; rfl)
      refine h.goto fun x hx => ?_
      obtain rfl : s.cmdSeq = x := Option.some.inj hx
      exact ⟨(h.own c _ hown).1, (h.own c _ hown).2, fun d hd hother => hd (h.apart d c _ hother hown)⟩
    · exact h
  | send c ok =>
    show Inv start (s.send c ok)
    unfold CommandSeq.send
    split
    · next seq hc =>
      cases ok with
      | false => exact h.leave rfl
      | true => exact h.sent (by rw [hc]; rfl)
    · exact h
  | finish c =>
    show Inv start (s.finish c)
    unfold CommandSeq.finish
    split
    · next seq hc =>
      obtain rfl := hf seq (by rw [hc]; rfl)
      exact h.finish
    · exact h

end

/-! ## the epoch -/

/-- as an ARM leaves it: no call under way -/
def armed (start : ℕ) : CommandSeq := { cmdSeq := BitVec.ofNat 32 start }

/-- a whole call -/
def call (c : Caller) : List Event := [.count c, .store c, .pack c, .send c true, .finish c]

end CommandSeq

end ArmControl.RemoteRt
