import Mathlib.Logic.Function.Basic
import Mathlib.Algebra.Group.Nat.Defs
import Mathlib.Data.Nat.Bits
import ArmControl.Lib.Run

/-!
# The fault latch, one atomic operation at a time (`server.hpp`)

One five-state word arbitrates three operations of two threads:

* `latch`           either thread: claim FREE → WRITING, fill the record, publish SET last;
* `clear_latch`     control thread (DISARM): wait out a writer for a bounded time, claim
                    FREE/SET → CLEARING, reset the record, publish FREE;
* `arm_unlatched`   control thread (CTL_ARM): claim FREE → ARMING, prepare the generation
                    (`begin_arm`), publish FREE, raise `armed`.

The control thread also polls `pending_fault_notice` and acknowledges what it delivered.
A thread's position is a `Pc`; each step of a thread is one atomic operation of the source (the
text buffer is torn while it is being written).  `claims` and `delivered` are history: the latch
calls that won the word since the last clear, and the notices the client has received.
-/

namespace ArmControl.Rt
namespace Latch

inductive LatchWord where
  | free | writing | set | clearing | arming
  deriving DecidableEq, Inhabited

/-- the arguments of one `latch()` call -/
structure LatchCall where
  code : ℕ
  text : List Char
  originGen : ℕ
  deriving DecidableEq, Inhabited

/-- `fault_text`: a NUL-terminated text, or a buffer some writer is in the middle of -/
inductive Buffer where
  | text (t : List Char)
  | torn
  deriving DecidableEq, Inhabited

/-- the 104-byte wire copy: cut to 100 characters and `...` when it does not fit -/
def wireText (t : List Char) : List Char :=
  if t.length < 104 then t else t.take 100 ++ ['.', '.', '.']

inductive FaultKind where
  | first | secondary
  deriving DecidableEq

structure FaultNotice where
  seq : ℕ
  code : ℕ
  text : Buffer
  deriving DecidableEq

inductive Tid where
  | rt | control
  deriving DecidableEq

/-- position inside a call: the next atomic operation -/
inductive Pc where
  | idle
  -- latch()
  | latchClaim (c : LatchCall)
  | secondaryCode (c : LatchCall)
  | secondaryBit (c : LatchCall)
  | secondaryJournal (c : LatchCall)
  | textBegin (c : LatchCall)
  | textEnd (c : LatchCall)
  | storeCode (c : LatchCall)
  | storeGen (c : LatchCall)
  | bumpSeq (c : LatchCall)
  | storeFault (c : LatchCall)
  | journalFirst (c : LatchCall)
  | storeSet (c : LatchCall)
  -- clear_latch()
  | clearLoad
  | clearClaim (seen : LatchWord)
  | clearFault
  | clearCode
  | clearGen
  | clearText
  | clearSecondary
  | clearFree
  -- arm_unlatched() around begin_arm's preparation
  | armClaim
  | armLoad
  | armStart (gen : ℕ)
  | armOwner (gen : ℕ)
  | armPeer (gen : ℕ)
  | armPublish (gen : ℕ)
  | armFree
  | armRaise
  -- pending_fault_notice(), send, ack_fault_notice()
  | noticeWord
  | noticeSeq
  | noticeCode (seq : ℕ)
  | noticeText (seq code : ℕ)
  | noticeSend (n : FaultNotice)
  | noticeAck (seq : ℕ)
  deriving DecidableEq

structure St where
  word : LatchWord := .free
  fault : Bool := false
  faultCode : ℕ := 0
  faultGen : ℕ := 0
  faultText : Buffer := .text []
  faultSeq : ℕ := 0
  secondaryCodes : ℕ := 0
  faultNotified : ℕ := 0
  armed : Bool := false
  armGen : ℕ := 0
  armStart : ℕ × ℕ := (0, 0)
  cmdOwner : ℕ := 0
  peerGen : ℕ := 0
  journaled : List (FaultKind × LatchCall) := []
  claims : List LatchCall := []
  delivered : List FaultNotice := []
  pc : Tid → Pc := fun _ => .idle

def St.goto (s : St) (t : Tid) (p : Pc) : St := { s with pc := Function.update s.pc t p }

inductive Call where
  | latch (c : LatchCall)
  | clear
  | arm
  | notice

/-- an idle thread starts a call, or a thread makes its next atomic operation.  `outcome` is what
the world decides there: the clear budget has run out, or the notice was sent; `now` is the clock. -/
inductive Event where
  | call (t : Tid) (c : Call)
  | go (t : Tid) (outcome : Bool) (now : ℕ)

/-- RT only latches; the control thread makes every call -/
def Call.entry (t : Tid) : Call → Option Pc
  | .latch c => some (.latchClaim c)
  | .clear => if t = .control then some .clearLoad else none
  | .arm => if t = .control then some .armClaim else none
  | .notice => if t = .control then some .noticeWord else none

def start (s : St) (t : Tid) (c : Call) : St :=
  match s.pc t, c.entry t with
  | .idle, some p => s.goto t p
  | _, _ => s

def go (s : St) (t : Tid) (outcome : Bool) (now : ℕ) : St :=
  match s.pc t with
  | .idle => s
  | .latchClaim c =>
    if s.word = .free then
      { s with word := .writing, claims := s.claims ++ [c] }.goto t (.textBegin c)
    else s.goto t (.secondaryCode c)
  | .secondaryCode c => s.goto t (if c.code ≠ s.faultCode then .secondaryBit c else .idle)
  | .secondaryBit c =>
    let bit := c.code % 32
    { s with secondaryCodes := s.secondaryCodes ||| 2^bit }.goto t
      (if s.secondaryCodes.testBit bit then .idle else .secondaryJournal c)
  | .secondaryJournal c => { s with journaled := s.journaled ++ [(FaultKind.secondary, c)] }.goto t .idle
  | .textBegin c => { s with faultText := .torn }.goto t (.textEnd c)
  | .textEnd c => { s with faultText := .text (wireText c.text) }.goto t (.storeCode c)
  | .storeCode c => { s with faultCode := c.code }.goto t (.storeGen c)
  | .storeGen c => { s with faultGen := c.originGen }.goto t (.bumpSeq c)
  | .bumpSeq c => { s with faultSeq := s.faultSeq + 1 }.goto t (.storeFault c)
  | .storeFault c => { s with fault := true }.goto t (.journalFirst c)
  | .journalFirst c => { s with journaled := s.journaled ++ [(FaultKind.first, c)] }.goto t (.storeSet c)
  | .storeSet _ => { s with word := .set }.goto t .idle
  | .clearLoad =>
    -- a writer is waited for until the budget runs out: `false`, the latch left intact
    if s.word = .writing then s.goto t (if outcome then .idle else .clearLoad)
    else s.goto t (.clearClaim s.word)
  | .clearClaim seen =>
    if s.word = seen then { s with word := .clearing }.goto t .clearFault else s.goto t .clearLoad
  | .clearFault => { s with fault := false }.goto t .clearCode
  | .clearCode => { s with faultCode := 0 }.goto t .clearGen
  | .clearGen => { s with faultGen := 0 }.goto t .clearText
  | .clearText => { s with faultText := .text [] }.goto t .clearSecondary
  | .clearSecondary => { s with secondaryCodes := 0 }.goto t .clearFree
  | .clearFree => { s with word := .free, claims := [] }.goto t .idle
  | .armClaim =>
    if s.word = .free then { s with word := .arming }.goto t .armLoad else s.goto t .idle
  | .armLoad => s.goto t (.armStart (s.armGen + 1))
  | .armStart gen => { s with armStart := (gen, now) }.goto t (.armOwner gen)
  | .armOwner gen => { s with cmdOwner := 0 }.goto t (.armPeer gen)
  | .armPeer gen => { s with peerGen := gen }.goto t (.armPublish gen)
  | .armPublish gen => { s with armGen := gen }.goto t .armFree
  | .armFree => { s with word := .free }.goto t .armRaise
  | .armRaise => { s with armed := true }.goto t .idle
  | .noticeWord => s.goto t (if s.word = .set then .noticeSeq else .idle)
  | .noticeSeq => s.goto t (if s.faultSeq = s.faultNotified then .idle else .noticeCode s.faultSeq)
  | .noticeCode seq => s.goto t (.noticeText seq s.faultCode)
  | .noticeText seq code => s.goto t (.noticeSend ⟨seq, code, s.faultText⟩)
  | .noticeSend n =>
    if outcome then { s with delivered := s.delivered ++ [n] }.goto t (.noticeAck n.seq)
    else s.goto t .idle
  | .noticeAck seq =>
    { s with faultNotified := if s.faultNotified < seq then seq else s.faultNotified }.goto t .idle

def step (s : St) : Event → St
  | .call t c => start s t c
  | .go t outcome now => go s t outcome now

end Latch

end ArmControl.Rt
