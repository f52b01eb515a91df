import Mathlib.Data.List.Perm.Basic
import Mathlib.Logic.Function.Basic
import ArmControl.Lib.Run

/-!
# The triple-buffer mailbox, one access at a time (`mailbox.hpp`)

One writer and one reader share three slots.  The writer owns `back`, the reader owns `front`, the
third is in transit: its index is the low bits of `middle`, whose `FRESH` bit says that nobody has
taken it since it was written.

* `write`   fill `slots[back]`, stamp it with the next version, exchange it against the middle;
* `read`    probe `middle`, take the middle slot if it is fresh, copy `slots[front]`.

A value is `k` words that are written and copied one by one, so a slot that both threads touch would
show as a mixture of two values.  `completed` (the values of the completed writes, in order) and
`returned` (what the reads returned, with the number of writes completed when each began) are
history.  `written` counts writes (64 bits in the source, which no run exhausts).

* `Kept`             what the mailbox promises its two threads;
* `mailbox_kept`     it holds in every interleaving.
-/

namespace ArmControl.Rt
namespace Mailbox
open Function

/-- `INDEX` and `FRESH` -/
def index : BitVec 8 := 3
def fresh : BitVec 8 := 4

structure Slot (k : ℕ) (β : Type) where
  value : Fin k → β
  version : ℕ

/-- position inside `write()`: `i` words are in the slot, or the exchange is next -/
inductive WriterPc (k : ℕ) (β : Type) where
  | idle
  | fill (v : Fin k → β) (i : ℕ)
  | publish (v : Fin k → β)

/-- position inside `read(out)`: the load or the exchange is next, or `i` words are in `out`;
`since` is the number of writes completed when it began -/
inductive ReaderPc (k : ℕ) (β : Type) where
  | idle
  | probe (since : ℕ) (out : Fin k → β)
  | take (since : ℕ) (out : Fin k → β)
  | copy (since : ℕ) (out : Fin k → β) (i : ℕ)

/-- what a `read()` returned -/
structure Returned (k : ℕ) (β : Type) where
  value : Fin k → β
  version : ℕ
  since : ℕ

structure State (k : ℕ) (β : Type) where
  slots : BitVec 8 → Slot k β
  middle : BitVec 8 := 1
  back : BitVec 8 := 0
  front : BitVec 8 := 2
  written : ℕ := 0
  writer : WriterPc k β := .idle
  reader : ReaderPc k β := .idle
  completed : List (Fin k → β) := []
  returned : List (Returned k β) := []

/-- a call of either thread (`out` is the buffer as the caller left it), and one more access of the
call under way -/
inductive Event (k : ℕ) (β : Type) where
  | write (v : Fin k → β)
  | writer
  | read (out : Fin k → β)
  | reader

section
variable {k : ℕ} {β : Type}

/-- `Mailbox()`: every slot holds `T{}` and version 0 -/
def initial [Inhabited β] : State k β :=
  { slots := fun _ => { value := default, version := 0 } }

def writerStep (s : State k β) : State k β :=
  match s.writer with
  | .idle => s
  | .fill v i =>
    let slot := s.slots s.back
    if h : i < k then
      { s with slots := update s.slots s.back { slot with value := update slot.value ⟨i, h⟩ (v ⟨i, h⟩) }
               writer := .fill v (i + 1) }
    else
      { s with slots := update s.slots s.back { slot with version := s.written + 1 }
               written := s.written + 1
               writer := .publish v }
  | .publish v =>
    { s with middle := s.back ||| fresh
             back := s.middle &&& index
             writer := .idle
             completed := s.completed ++ [v] }

def readerStep (s : State k β) : State k β :=
  match s.reader with
  | .idle => s
  | .probe since out =>
    if s.middle &&& fresh ≠ 0 then { s with reader := .take since out }
    else { s with reader := .copy since out 0 }
  | .take since out =>
    { s with middle := s.front
             front := s.middle &&& index
             reader := .copy since out 0 }
  | .copy since out i =>
    let slot := s.slots s.front
    if h : i < k then
      { s with reader := .copy since (update out ⟨i, h⟩ (slot.value ⟨i, h⟩)) (i + 1) }
    else
      { s with reader := .idle
               returned := s.returned ++ [{ value := out, version := slot.version, since := since }] }

def step (s : State k β) : Event k β → State k β
  | .write v => match s.writer with
    | .idle => { s with writer := .fill v 0 }
    | _ => s
  | .writer => writerStep s
  | .read out => match s.reader with
    | .idle => { s with reader := .probe s.completed.length out }
    | _ => s
  | .reader => readerStep s

/-! ## what the two threads are promised -/

/-- the writer has write number `completed.length + 1` in the middle of its slot -/
def State.filling (s : State k β) : Prop :=
  match s.writer with
  | .fill _ _ => True
  | _ => False

/-- the reader is in the middle of the copy -/
def State.copying (s : State k β) : Prop :=
  match s.reader with
  | .copy _ _ _ => True
  | _ => False

/-- `value` and `version` are those of one completed write, or of no write -/
def Whole [Inhabited β] (completed : List (Fin k → β)) (value : Fin k → β) (version : ℕ) : Prop :=
  (value = default ∧ version = 0) ∨ (0 < version ∧ completed[version - 1]? = some value)

structure Kept [Inhabited β] (s : State k β) : Prop where
  owned : [s.back, s.front, s.middle &&& index].Perm [0, 1, 2]
  apart : s.filling → s.copying → s.back ≠ s.front
  whole : ∀ r ∈ s.returned, Whole s.completed r.value r.version
  monotone : s.returned.Pairwise (fun r r' => r.version ≤ r'.version)
  recent : ∀ r ∈ s.returned, r.since ≤ r.version

/-! ## the ownership permutation -/

/-- the masks take an index and its `FRESH` bit apart again -/
theorem masks : ∀ b ∈ ([0, 1, 2] : List (BitVec 8)),
    (b ||| fresh) &&& index = b ∧ (b ||| fresh) &&& fresh ≠ 0 ∧ b &&& index = b ∧ b &&& fresh = 0 := by
  decide

def Owned (s : State k β) : Prop := [s.back, s.front, s.middle &&& index].Perm [0, 1, 2]

theorem Owned.distinct {s : State k β} (h : Owned s) :
    s.back ≠ s.front ∧ s.back ≠ s.middle &&& index ∧ s.front ≠ s.middle &&& index := by
  have hn : [s.back, s.front, s.middle &&& index].Nodup := h.nodup_iff.mpr (by decide)
  rw [List.nodup_cons, List.nodup_cons] at hn
  obtain ⟨h1, h2, -⟩ := hn
  refine ⟨?_, ?_, ?_⟩
  · rintro he
    exact h1 (by rw [he]; simp)
  · rintro he
    exact h1 (by rw [← he]; simp)
  · rintro he
    exact h2 (by rw [← he]; simp)

theorem Owned.back {s : State k β} (h : Owned s) : s.back ∈ ([0, 1, 2] : List (BitVec 8)) :=
  h.subset (by simp)

theorem Owned.front {s : State k β} (h : Owned s) : s.front ∈ ([0, 1, 2] : List (BitVec 8)) :=
  h.subset (by simp)

/-! ## what the slots hold -/

section
variable [Inhabited β] {completed : List (Fin k → β)} {value : Fin k → β} {version : ℕ}

theorem Whole.snoc (h : Whole completed value version) (v : Fin k → β) :
    Whole (completed ++ [v]) value version := by
  rcases h with h | ⟨h0, h⟩
  · exact .inl h
  · refine .inr ⟨h0, ?_⟩
    rw [List.getElem?_append_left]
    · exact h
    · exact (List.getElem?_eq_some_iff.mp h).1

theorem Whole.le (h : Whole completed value version) : version ≤ completed.length := by
  rcases h with ⟨-, rfl⟩ | ⟨h0, h⟩
  · exact Nat.zero_le _
  · have := (List.getElem?_eq_some_iff.mp h).1
    omega

theorem whole_last (v : Fin k → β) : Whole (completed ++ [v]) v (completed.length + 1) := by
  refine .inr ⟨Nat.succ_pos _, ?_⟩
  simp

end

/-- the slot a read would return if it took the middle whenever it is fresh -/
def State.newest (s : State k β) : Slot k β :=
  if s.middle &&& fresh ≠ 0 then s.slots (s.middle &&& index) else s.slots s.front

/-- the writer's slot, as far as it is filled -/
def Filled (s : State k β) : Prop :=
  match s.writer with
  | .idle => s.written = s.completed.length
  | .fill v i => s.written = s.completed.length ∧
      ∀ j : Fin k, j < i → (s.slots s.back).value j = v j
  | .publish v => s.written = s.completed.length + 1 ∧
      (s.slots s.back).value = v ∧ (s.slots s.back).version = s.completed.length + 1

/-- the reader's buffer, as far as it is copied -/
def Copied (s : State k β) : Prop :=
  match s.reader with
  | .idle => True
  | .probe since _ => since ≤ s.completed.length
  | .take since _ => since ≤ s.completed.length ∧ s.middle &&& fresh ≠ 0
  | .copy since out i => since ≤ (s.slots s.front).version ∧
      ∀ j : Fin k, j < i → out j = (s.slots s.front).value j

structure Sound [Inhabited β] (s : State k β) : Prop where
  owned : Owned s
  front : Whole s.completed (s.slots s.front).value (s.slots s.front).version
  newest : Whole s.completed s.newest.value s.newest.version
  latest : s.newest.version = s.completed.length
  filled : Filled s
  copied : Copied s
  seen : ∀ r ∈ s.returned, r.version ≤ (s.slots s.front).version
  whole : ∀ r ∈ s.returned, Whole s.completed r.value r.version
  monotone : s.returned.Pairwise (fun r r' => r.version ≤ r'.version)
  recent : ∀ r ∈ s.returned, r.since ≤ r.version

section
variable [Inhabited β] {s : State k β}

theorem newest_init :
    (initial : State k β).newest = { value := default, version := 0 } := by
  unfold State.newest
  split <;> rfl

theorem sound_init : Sound (initial : State k β) where
  owned := by
    show [(0 : BitVec 8), 2, 1 &&& index].Perm [0, 1, 2]
    decide
  front := .inl ⟨rfl, rfl⟩
  newest := by
    rw [newest_init]
    exact .inl ⟨rfl, rfl⟩
  latest := by
    rw [newest_init]
    rfl
  filled := rfl
  copied := trivial
  seen := by intro r h; cases h
  whole := by intro r h; cases h
  monotone := List.Pairwise.nil
  recent := by intro r h; cases h

/-- the writer's accesses to its own slot are seen by nobody -/
theorem Sound.fillBack (h : Sound s) (slot : Slot k β) (written : ℕ) (pc : WriterPc k β)
    (hf : Filled { s with slots := update s.slots s.back slot, written := written, writer := pc }) :
    Sound { s with slots := update s.slots s.back slot, written := written, writer := pc } := by
  obtain ⟨hbf, hbm, -⟩ := h.owned.distinct
  have hfront : update s.slots s.back slot s.front = s.slots s.front := update_of_ne hbf.symm _ _
  have hmid : update s.slots s.back slot (s.middle &&& index) = s.slots (s.middle &&& index) :=
    update_of_ne hbm.symm _ _
  have hnew : State.newest { s with slots := update s.slots s.back slot
                                    written := written, writer := pc } = s.newest := by
    show (if s.middle &&& fresh ≠ 0 then update s.slots s.back slot (s.middle &&& index)
      else update s.slots s.back slot s.front) = s.newest
    rw [hfront, hmid]
    rfl
  refine { owned := h.owned, front := ?_, newest := ?_, latest := ?_, filled := hf, copied := ?_,
           seen := ?_, whole := h.whole, monotone := h.monotone, recent := h.recent }
  · show Whole s.completed (update s.slots s.back slot s.front).value
      (update s.slots s.back slot s.front).version
    rw [hfront]
    exact h.front
  · rw [hnew]
    exact h.newest
  · rw [hnew]
    exact h.latest
  · have hc := h.copied
    unfold Copied at hc ⊢
    show match s.reader with
      | .idle => True
      | .probe since _ => since ≤ s.completed.length
      | .take since _ => since ≤ s.completed.length ∧ s.middle &&& fresh ≠ 0
      | .copy since out i => since ≤ (update s.slots s.back slot s.front).version ∧
          ∀ j : Fin k, j < i → out j = (update s.slots s.back slot s.front).value j
    rw [hfront]
    exact hc
  · show ∀ r ∈ s.returned, r.version ≤ (update s.slots s.back slot s.front).version
    rw [hfront]
    exact h.seen

theorem Sound.fillWord {v : Fin k → β} {i : ℕ} (h : Sound s) (hw : s.writer = .fill v i)
    (hi : i < k) (slot : Slot k β)
    (hslot : slot = { s.slots s.back with value := update (s.slots s.back).value ⟨i, hi⟩ (v ⟨i, hi⟩) }) :
    Sound { s with slots := update s.slots s.back slot, writer := .fill v (i + 1) } := by
  have hf := h.filled
  simp only [Filled, hw] at hf
  refine h.fillBack slot s.written (.fill v (i + 1)) ⟨hf.1, fun j hj => ?_⟩
  show (update s.slots s.back slot s.back).value j = v j
  rw [update_self, hslot]
  show update (s.slots s.back).value ⟨i, hi⟩ (v ⟨i, hi⟩) j = v j
  rcases eq_or_ne j ⟨i, hi⟩ with rfl | hne
  · exact update_self _ _ _
  · rw [update_of_ne hne]
    exact hf.2 j (by
      have : j.val ≠ i := fun he => hne (Fin.ext he)
      omega)

theorem Sound.stamp {v : Fin k → β} {i : ℕ} (h : Sound s) (hw : s.writer = .fill v i)
    (hi : ¬ i < k) :
    Sound { s with slots := update s.slots s.back { s.slots s.back with version := s.written + 1 }
                   written := s.written + 1, writer := .publish v } := by
  have hf := h.filled
  simp only [Filled, hw] at hf
  refine h.fillBack _ _ _ ⟨?_, ?_, ?_⟩
  · show s.written + 1 = s.completed.length + 1
    rw [hf.1]
  · show (update s.slots s.back _ s.back).value = v
    rw [update_self]
    funext j
    exact hf.2 j (by omega)
  · show (update s.slots s.back _ s.back).version = s.completed.length + 1
    rw [update_self, hf.1]

/-- the writer's exchange: its slot goes into transit, and is the newest -/
theorem Sound.publish {v : Fin k → β} (h : Sound s) (hw : s.writer = .publish v) :
    Sound { s with middle := s.back ||| fresh, back := s.middle &&& index, writer := .idle
                   completed := s.completed ++ [v] } := by
  have hf := h.filled
  simp only [Filled, hw] at hf
  obtain ⟨hwr, hval, hver⟩ := hf
  obtain ⟨hidx, hfr, -, -⟩ := masks _ h.owned.back
  have hlen : (s.completed ++ [v]).length = s.completed.length + 1 := List.length_append
  have hnew : State.newest { s with middle := s.back ||| fresh, back := s.middle &&& index
                                    writer := .idle, completed := s.completed ++ [v] }
      = s.slots s.back := by
    unfold State.newest
    rw [if_pos hfr]
    show s.slots ((s.back ||| fresh) &&& index) = _
    rw [hidx]
  refine { owned := ?_, front := h.front.snoc v, newest := ?_, latest := ?_, filled := ?_,
           copied := ?_, seen := h.seen, whole := fun r hr => (h.whole r hr).snoc v,
           monotone := h.monotone, recent := h.recent }
  · show [s.middle &&& index, s.front, (s.back ||| fresh) &&& index].Perm _
    rw [hidx]
    exact List.Perm.trans (List.reverse_perm [s.back, s.front, s.middle &&& index]) h.owned
  · rw [hnew, hval, hver]
    exact whole_last v
  · rw [hnew, hver]
    exact hlen.symm
  · show s.written = (s.completed ++ [v]).length
    rw [hwr, hlen]
  · have hc := h.copied
    cases hr : s.reader with
    | idle => simp only [Copied]
    | probe since out =>
      simp only [Copied, hr] at hc ⊢
      omega
    | take since out =>
      simp only [Copied, hr] at hc ⊢
      exact ⟨by omega, hfr⟩
    | copy since out i =>
      simp only [Copied, hr] at hc ⊢
      exact hc

theorem sound_writerStep (h : Sound s) : Sound (writerStep s) := by
  unfold writerStep
  cases hw : s.writer with
  | idle => exact h
  | fill v i =>
    show Sound (if h : i < k then _ else _)
    split
    case isTrue hi => exact h.fillWord hw hi _ rfl
    case isFalse hi => exact h.stamp hw hi
  | publish v => exact h.publish hw

/-- a move of the reader that leaves the mailbox alone -/
theorem Sound.readerAt (h : Sound s) (pc : ReaderPc k β) (hc : Copied { s with reader := pc }) :
    Sound { s with reader := pc } :=
  { h with copied := hc }

/-- nothing fresh: the front slot is the newest -/
theorem Sound.stale (h : Sound s) (hs : ¬ s.middle &&& fresh ≠ 0) :
    (s.slots s.front).version = s.completed.length := by
  have hl := h.latest
  unfold State.newest at hl
  rw [if_neg hs] at hl
  exact hl

/-- the reader's exchange: it takes the newest slot and hands its own back -/
theorem Sound.take {since : ℕ} {out : Fin k → β} (h : Sound s) (hr : s.reader = .take since out) :
    Sound { s with middle := s.front, front := s.middle &&& index, reader := .copy since out 0 } := by
  have hc := h.copied
  simp only [Copied, hr] at hc
  obtain ⟨hsince, hfr⟩ := hc
  have hold : s.newest = s.slots (s.middle &&& index) := if_pos hfr
  obtain ⟨-, -, hidx, hnf⟩ := masks _ h.owned.front
  have hnew : State.newest { s with middle := s.front, front := s.middle &&& index
                                    reader := .copy since out 0 } = s.newest := by
    rw [hold]
    exact if_neg (not_not.mpr hnf)
  have hver : (s.slots (s.middle &&& index)).version = s.completed.length := by
    rw [← hold]
    exact h.latest
  refine { owned := ?_, front := ?_, newest := ?_, latest := ?_, filled := h.filled, copied := ?_,
           seen := ?_, whole := h.whole, monotone := h.monotone, recent := h.recent }
  · show [s.back, s.middle &&& index, s.front &&& index].Perm _
    rw [hidx]
    exact List.Perm.trans ((List.Perm.swap _ _ _).cons _) h.owned
  · show Whole s.completed (s.slots (s.middle &&& index)).value _
    rw [← hold]
    exact h.newest
  · rw [hnew]
    exact h.newest
  · rw [hnew]
    exact h.latest
  · refine ⟨?_, fun j hj => absurd hj (Nat.not_lt_zero _)⟩
    show since ≤ (s.slots (s.middle &&& index)).version
    omega
  · intro r hmem
    show r.version ≤ (s.slots (s.middle &&& index)).version
    rw [hver]
    exact (h.whole r hmem).le

/-- the end of a read -/
theorem Sound.deliver {since : ℕ} {out : Fin k → β} {i : ℕ} (h : Sound s)
    (hr : s.reader = .copy since out i) (hi : ¬ i < k) :
    Sound { s with reader := .idle
                   returned := s.returned ++
                     [{ value := out, version := (s.slots s.front).version, since := since }] } := by
  have hc := h.copied
  simp only [Copied, hr] at hc
  have hout : out = (s.slots s.front).value := by
    funext j
    exact hc.2 j (by omega)
  refine { owned := h.owned, front := h.front, newest := h.newest, latest := h.latest,
           filled := h.filled, copied := trivial, seen := ?_, whole := ?_, monotone := ?_,
           recent := ?_ }
  · intro r hmem
    rcases List.mem_append.mp hmem with hmem | hmem
    · exact h.seen r hmem
    · rw [List.mem_singleton.mp hmem]
  · intro r hmem
    rcases List.mem_append.mp hmem with hmem | hmem
    · exact h.whole r hmem
    · rw [List.mem_singleton.mp hmem, hout]
      exact h.front
  · refine List.pairwise_append.mpr ⟨h.monotone, List.pairwise_singleton _ _, ?_⟩
    intro r hmem r' hmem'
    rw [List.mem_singleton.mp hmem']
    exact h.seen r hmem
  · intro r hmem
    rcases List.mem_append.mp hmem with hmem | hmem
    · exact h.recent r hmem
    · rw [List.mem_singleton.mp hmem]
      exact hc.1

theorem sound_readerStep (h : Sound s) : Sound (readerStep s) := by
  unfold readerStep
  have hc := h.copied
  cases hr : s.reader with
  | idle => exact h
  | probe since out =>
    simp only [Copied, hr] at hc
    show Sound (if s.middle &&& fresh ≠ 0 then _ else _)
    split
    case isTrue hs => exact h.readerAt _ ⟨hc, hs⟩
    case isFalse hs =>
      refine h.readerAt _ ⟨?_, fun j hj => absurd hj (Nat.not_lt_zero _)⟩
      show since ≤ (s.slots s.front).version
      rw [h.stale hs]
      exact hc
  | take since out => exact h.take hr
  | copy since out i =>
    simp only [Copied, hr] at hc
    show Sound (if h : i < k then _ else _)
    split
    case isTrue hi =>
      refine h.readerAt _ ⟨hc.1, fun j hj => ?_⟩
      rcases eq_or_ne j ⟨i, hi⟩ with rfl | hne
      · exact update_self _ _ _
      · rw [update_of_ne hne]
        exact hc.2 j (by
          have : j.val ≠ i := fun he => hne (Fin.ext he)
          omega)
    case isFalse hi => exact h.deliver hr hi

theorem sound_step (h : Sound s) (e : Event k β) : Sound (step s e) := by
  cases e with
  | write v =>
    show Sound (match s.writer with | .idle => _ | _ => _)
    split
    case h_1 hw =>
      have hf := h.filled
      simp only [Filled, hw] at hf
      exact { h with filled := ⟨hf, fun j hj => absurd hj (Nat.not_lt_zero _)⟩ }
    case h_2 => exact h
  | writer => exact sound_writerStep h
  | read out =>
    show Sound (match s.reader with | .idle => _ | _ => _)
    split
    case h_1 => exact h.readerAt _ (Nat.le_refl _)
    case h_2 => exact h
  | reader => exact sound_readerStep h

end

/-- **The mailbox in every interleaving.**  The three indices are a permutation of the slots, so the
writer never fills the slot the reader copies; every read returns the value and the version of one
completed write, or `T{}` and 0; versions never decrease; and a read returns a version of at least
the number of writes that had completed when it began. -/
theorem mailbox_kept [Inhabited β] (es : List (Event k β)) : Kept (Run.run step initial es) := by
  have h : Sound (Run.run step initial es) :=
    Run.invariant sound_init (fun _ e _ h => sound_step h e)
      (Run.along_of_forall (C := fun _ _ => True) (fun _ _ => trivial) es)
  exact { owned := h.owned, apart := fun _ _ => h.owned.distinct.1, whole := h.whole,
          monotone := h.monotone, recent := h.recent }

end
end Mailbox
end ArmControl.Rt
