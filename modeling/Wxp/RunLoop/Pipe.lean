import Wxp.Foundations.System
import Mathlib.Logic.Function.Basic

/-!
# RunLoop — Pipe

The self-pipe of the Android backend. `PlatformRunLoopSender::send` pushes its callback and
writes eight bytes while it holds the `callbacks` mutex; `looper_cb` reads eight bytes, then
takes the mutex and drains the whole queue. So the bytes of callbacks that are long gone can stay
in the pipe, and a write to a full pipe waits, with the mutex held, for a read that only the run
loop thread makes.

Result: `send_never_wedges_iff`.
-/

namespace Wxp.RunLoop

/-- Who calls `send`: the run loop thread, or another thread. -/
inductive Party (θ : Type)
  | runLoop
  | background (t : θ)
  deriving DecidableEq, Repr

/-- Where a call of `send` is. -/
inductive SendPhase (κ : Type)
  /-- At `callbacks.lock()`, with its callback. -/
  | lock (c : κ)
  /-- At `write`, with the mutex. -/
  | write
  deriving DecidableEq, Repr

/-- What the run loop thread is inside of, innermost first. -/
inductive LooperFrame (κ : Type)
  /-- `looper_cb` has read, and is at the lock of `process_callbacks`. -/
  | locking
  /-- `process_callbacks` runs what it has drained. -/
  | running (callbacks : List κ)
  | callback (c : κ)
  /-- User code pumps the looper (`poll_once`, `run`). -/
  | native
  deriving DecidableEq, Repr

structure SelfPipe (θ κ : Type) where
  /-- The bytes in the pipe. -/
  bytes : Nat := 0
  callbacks : List κ := []
  /-- Who holds the `callbacks` mutex. -/
  holder : Option (Party θ) := none
  stack : List (LooperFrame κ) := []
  sends : Party θ → Option (SendPhase κ) := fun _ => none

inductive PipeAct (θ κ : Type)
  | send (p : Party θ) (c : κ)
  | lock (p : Party θ)
  | write (p : Party θ)
  | looperCb
  | drain
  | next
  | finish
  | enterNative
  | exitNative
  deriving DecidableEq, Repr

variable {θ κ : Type}

namespace SelfPipe

/-- The run loop thread is in user code: its own, or a callback. -/
def userCode (s : SelfPipe θ κ) : Bool :=
  match s.stack with
  | [] | .callback _ :: _ => true
  | _ => false

/-- The looper is being polled. -/
def polling (s : SelfPipe θ κ) : Bool :=
  match s.stack with
  | [] | .native :: _ => true
  | _ => false

variable [DecidableEq θ]

/-- `send`, up to the lock. -/
def send (s : SelfPipe θ κ) (p : Party θ) (c : κ) : Option (SelfPipe θ κ) :=
  if (s.sends p).isNone && (p != .runLoop || s.userCode) then
    some { s with sends := Function.update s.sends p (some (.lock c)) }
  else none

/-- `callbacks.lock()` and `push`. -/
def lock (s : SelfPipe θ κ) (p : Party θ) : Option (SelfPipe θ κ) :=
  match s.sends p, s.holder with
  | some (.lock c), none =>
      some { s with
        callbacks := s.callbacks ++ [c],
        holder := some p,
        sends := Function.update s.sends p (some .write) }
  | _, _ => none

/-- `write` of eight bytes, for which the pipe must have room, and the end of `send`. -/
def write (capacity : Nat) (s : SelfPipe θ κ) (p : Party θ) : Option (SelfPipe θ κ) :=
  match s.sends p with
  | some .write =>
      if s.bytes + 8 ≤ capacity then
        some { s with
          bytes := s.bytes + 8, holder := none, sends := Function.update s.sends p none }
      else none
  | _ => none

omit [DecidableEq θ] in
/-- `looper_cb` up to `process_callbacks`, which the looper calls while there is something to
read. -/
def looperCb (s : SelfPipe θ κ) : Option (SelfPipe θ κ) :=
  if s.polling && decide (0 < s.bytes) then
    some { s with bytes := s.bytes - 8, stack := .locking :: s.stack }
  else none

/-- The lock of `process_callbacks`, and `drain`. -/
def drain (s : SelfPipe θ κ) : Option (SelfPipe θ κ) :=
  match s.stack, s.holder with
  | .locking :: rest, none =>
      some { s with callbacks := [], stack := .running s.callbacks :: rest }
  | _, _ => none

def next (s : SelfPipe θ κ) : Option (SelfPipe θ κ) :=
  match s.stack with
  | .running (c :: cs) :: rest => some { s with stack := .callback c :: .running cs :: rest }
  | .running [] :: rest => some { s with stack := rest }
  | _ => none

def finish (s : SelfPipe θ κ) : Option (SelfPipe θ κ) :=
  match s.stack with
  | .callback _ :: rest => some { s with stack := rest }
  | _ => none

def enterNative (s : SelfPipe θ κ) : Option (SelfPipe θ κ) :=
  if s.userCode then some { s with stack := .native :: s.stack } else none

def exitNative (s : SelfPipe θ κ) : Option (SelfPipe θ κ) :=
  match s.stack with
  | .native :: rest => some { s with stack := rest }
  | _ => none

/-- The steps of the run loop thread outside `send` wait until its own `send` is over. -/
def step (capacity : Nat) (s : SelfPipe θ κ) (a : PipeAct θ κ) : Option (SelfPipe θ κ) :=
  match a with
  | .send p c => s.send p c
  | .lock p => s.lock p
  | .write p => s.write capacity p
  | .looperCb => if (s.sends .runLoop).isNone then s.looperCb else none
  | .drain => if (s.sends .runLoop).isNone then s.drain else none
  | .next => if (s.sends .runLoop).isNone then s.next else none
  | .finish => if (s.sends .runLoop).isNone then s.finish else none
  | .enterNative => if (s.sends .runLoop).isNone then s.enterNative else none
  | .exitNative => if (s.sends .runLoop).isNone then s.exitNative else none

end SelfPipe

/-- The self-pipe of one run loop, with any number of sender threads. -/
def pipeSystem (θ κ : Type) [DecidableEq θ] (capacity : Nat) :
    System (SelfPipe θ κ) (PipeAct θ κ) where
  init := {}
  step := SelfPipe.step capacity

namespace SelfPipe

/-- A write of eight bytes waits. -/
def Full (capacity : Nat) (s : SelfPipe θ κ) : Prop := capacity < s.bytes + 8

instance (capacity : Nat) (s : SelfPipe θ κ) : Decidable (s.Full capacity) :=
  inferInstanceAs (Decidable (_ < _))

/-- The run loop thread waits for the `callbacks` mutex. -/
def awaitsMutex (s : SelfPipe θ κ) : Bool :=
  match s.sends .runLoop, s.stack with
  | some (.lock _), _ => true
  | none, .locking :: _ => true
  | _, _ => false

/-- A sender is blocked at the write, and the thread that could read is that sender, or waits for
the mutex that it holds. -/
def Wedged (capacity : Nat) (s : SelfPipe θ κ) : Prop :=
  s.Full capacity ∧ ∃ p, s.sends p = some .write ∧
    (p = .runLoop ∨ s.holder = some p ∧ s.awaitsMutex = true)

/-- While the pipe is full, the run loop thread does not go to `send` where the mutex is held, and
does not take it there; and nobody takes the mutex while the run loop thread waits for it. -/
def Roomy (capacity : Nat) (s : SelfPipe θ κ) : PipeAct θ κ → Prop
  | .send .runLoop _ => s.Full capacity → s.holder = none
  | .lock .runLoop => ¬ s.Full capacity
  | .lock (.background _) => s.Full capacity → s.awaitsMutex = false
  | _ => True

instance [DecidableEq θ] (capacity : Nat) (s : SelfPipe θ κ) (a : PipeAct θ κ) :
    Decidable (s.Roomy capacity a) :=
  match a with
  | .send .runLoop _ => inferInstanceAs (Decidable (s.Full capacity → s.holder = none))
  | .lock .runLoop => inferInstanceAs (Decidable (¬ s.Full capacity))
  | .lock (.background _) =>
      inferInstanceAs (Decidable (s.Full capacity → s.awaitsMutex = false))
  | .send (.background _) _ | .write _ | .looperCb | .drain | .next | .finish | .enterNative
  | .exitNative => isTrue trivial

/-- The invariant: the mutex is held by whoever is at the write, the pipe holds whole messages,
and no frame is on top of a `looper_cb` that waits for the mutex. -/
structure Wf (capacity : Nat) (s : SelfPipe θ κ) : Prop where
  holder : ∀ p, s.sends p = some .write ↔ s.holder = some p
  bytes_le : s.bytes ≤ capacity
  whole : 8 ∣ s.bytes
  top : LooperFrame.locking ∉ s.stack.tail

theorem not_locking_of_userCode {s : SelfPipe θ κ} (h : s.userCode = true)
    (rest : List (LooperFrame κ)) :
    s.stack ≠ .locking :: rest := by
  intro hs
  simp [userCode, hs] at h

theorem not_locking_of_polling {s : SelfPipe θ κ} (h : s.polling = true)
    (rest : List (LooperFrame κ)) :
    s.stack ≠ .locking :: rest := by
  intro hs
  simp [polling, hs] at h

/-- A stack without `locking` on top has it in its tail or not at all. -/
theorem locking_mem_tail {s : SelfPipe θ κ} (h : ∀ rest, s.stack ≠ .locking :: rest)
    (hmem : LooperFrame.locking ∈ s.stack) : LooperFrame.locking ∈ s.stack.tail := by
  cases hs : s.stack with
  | nil => simp [hs] at hmem
  | cons f rest =>
      rw [hs] at hmem
      rcases List.mem_cons.1 hmem with rfl | hmem
      · exact absurd hs (h rest)
      · exact hmem

theorem awaitsMutex_iff {s : SelfPipe θ κ} : s.awaitsMutex = true ↔
    (∃ c, s.sends .runLoop = some (.lock c)) ∨
      s.sends .runLoop = none ∧ ∃ rest, s.stack = .locking :: rest := by
  unfold awaitsMutex
  split <;> simp_all

/-- It depends on the run loop thread only. -/
theorem awaitsMutex_congr {s s' : SelfPipe θ κ} (h : s'.sends .runLoop = s.sends .runLoop)
    (hs : s'.stack = s.stack) : s'.awaitsMutex = s.awaitsMutex := by
  simp only [awaitsMutex, h, hs]

section Steps

variable [DecidableEq θ] {capacity : Nat} {s s' : SelfPipe θ κ} {a : PipeAct θ κ}

/-- What one step can do. The last constructor is a step of the run loop thread on its own
stack. -/
inductive Step (capacity : Nat) (s : SelfPipe θ κ) : PipeAct θ κ → SelfPipe θ κ → Prop
  | send (p : Party θ) (c : κ) : s.sends p = none → (p = .runLoop → s.userCode = true) →
      Step capacity s (.send p c) { s with sends := Function.update s.sends p (some (.lock c)) }
  | lock (p : Party θ) (c : κ) : s.sends p = some (.lock c) → s.holder = none →
      Step capacity s (.lock p) { s with
        callbacks := s.callbacks ++ [c],
        holder := some p,
        sends := Function.update s.sends p (some .write) }
  | write (p : Party θ) : s.sends p = some .write → s.bytes + 8 ≤ capacity →
      Step capacity s (.write p) { s with
        bytes := s.bytes + 8, holder := none, sends := Function.update s.sends p none }
  | looperCb : s.sends .runLoop = none → s.polling = true → 0 < s.bytes →
      Step capacity s .looperCb { s with bytes := s.bytes - 8, stack := .locking :: s.stack }
  | drain (rest : List (LooperFrame κ)) : s.sends .runLoop = none → s.holder = none →
      s.stack = .locking :: rest →
      Step capacity s .drain { s with callbacks := [], stack := .running s.callbacks :: rest }
  | own (a : PipeAct θ κ) (stack : List (LooperFrame κ)) : s.sends .runLoop = none →
      (∀ rest, s.stack ≠ .locking :: rest) → (.locking ∈ stack → .locking ∈ s.stack.tail) →
      s.Roomy capacity a → Step capacity s a { s with stack }

theorem step_cases (h : s.step capacity a = some s') : Step capacity s a s' := by
  cases a with
  | send p c =>
      simp only [step, SelfPipe.send, Option.ite_none_right_eq_some, Option.some.injEq] at h
      obtain ⟨hen, rfl⟩ := h
      simp only [Bool.and_eq_true, Option.isNone_iff_eq_none, Bool.or_eq_true, bne_iff_ne] at hen
      exact .send p c hen.1 fun hp => hen.2.resolve_left (not_not_intro hp)
  | lock p =>
      simp only [step, SelfPipe.lock] at h
      split at h
      · rename_i c hp hh
        cases h
        exact .lock p c hp hh
      · cases h
  | write p =>
      simp only [step, SelfPipe.write] at h
      split at h
      · rename_i hp
        rw [Option.ite_none_right_eq_some] at h
        obtain ⟨hroom, h⟩ := h
        cases h
        exact .write p hp hroom
      · cases h
  | looperCb =>
      simp only [step, SelfPipe.looperCb, Option.ite_none_right_eq_some, Option.some.injEq,
        Option.isNone_iff_eq_none, Bool.and_eq_true, decide_eq_true_eq] at h
      obtain ⟨hp, ⟨hpoll, hbytes⟩, rfl⟩ := h
      exact .looperCb hp hpoll hbytes
  | drain =>
      simp only [step, Option.ite_none_right_eq_some, Option.isNone_iff_eq_none] at h
      obtain ⟨hp, h⟩ := h
      unfold SelfPipe.drain at h
      split at h
      · rename_i rest hs hh
        cases h
        exact .drain rest hp hh hs
      · cases h
  | next =>
      simp only [step, Option.ite_none_right_eq_some, Option.isNone_iff_eq_none] at h
      obtain ⟨hp, h⟩ := h
      unfold SelfPipe.next at h
      split at h
      · rename_i c cs rest hs
        cases h
        exact .own .next _ hp (by simp [hs]) (by simp [hs]) trivial
      · rename_i rest hs
        cases h
        exact .own .next _ hp (by simp [hs]) (by simp [hs]) trivial
      · cases h
  | finish =>
      simp only [step, Option.ite_none_right_eq_some, Option.isNone_iff_eq_none] at h
      obtain ⟨hp, h⟩ := h
      unfold SelfPipe.finish at h
      split at h
      · rename_i c rest hs
        cases h
        exact .own .finish _ hp (by simp [hs]) (by simp [hs]) trivial
      · cases h
  | enterNative =>
      simp only [step, SelfPipe.enterNative, Option.ite_none_right_eq_some, Option.some.injEq,
        Option.isNone_iff_eq_none] at h
      obtain ⟨hp, huser, rfl⟩ := h
      have htop := not_locking_of_userCode huser
      exact .own .enterNative _ hp htop
        (fun hmem => locking_mem_tail htop (by simpa using hmem)) trivial
  | exitNative =>
      simp only [step, Option.ite_none_right_eq_some, Option.isNone_iff_eq_none] at h
      obtain ⟨hp, h⟩ := h
      unfold SelfPipe.exitNative at h
      split at h
      · rename_i rest hs
        cases h
        exact .own .exitNative _ hp (by simp [hs]) (by simp [hs]) trivial
      · cases h

theorem Wf.step (hw : Wf capacity s) (h : s.step capacity a = some s') : Wf capacity s' := by
  cases step_cases h with
  | send p c hp huser =>
      refine ⟨fun q => ?_, hw.bytes_le, hw.whole, hw.top⟩
      rw [← hw.holder q]
      by_cases hq : q = p
      · subst hq
        simp [hp]
      · simp [Function.update_of_ne hq]
  | lock p c hp hh =>
      refine ⟨fun q => ?_, hw.bytes_le, hw.whole, hw.top⟩
      by_cases hq : q = p
      · subst hq
        simp
      · have hno : s.sends q ≠ some .write := by
          rw [ne_eq, hw.holder q, hh]
          simp
        simp [Function.update_of_ne hq, hno, Ne.symm hq]
  | write p hp hroom =>
      refine ⟨fun q => ?_, hroom, Nat.dvd_add hw.whole (Nat.dvd_refl 8), hw.top⟩
      by_cases hq : q = p
      · subst hq
        simp
      · have hno : s.sends q ≠ some .write := by
          rw [ne_eq, hw.holder q, (hw.holder p).1 hp]
          simpa using Ne.symm hq
        simp [Function.update_of_ne hq, hno]
  | looperCb hp hpoll hbytes =>
      have hwhole := hw.whole
      have hle := hw.bytes_le
      refine ⟨hw.holder, by simp only; omega, by simp only; omega, ?_⟩
      exact fun hmem => hw.top (locking_mem_tail (not_locking_of_polling hpoll) hmem)
  | drain rest hp hh hs =>
      refine ⟨hw.holder, hw.bytes_le, hw.whole, ?_⟩
      have htop := hw.top
      rw [hs] at htop
      exact htop
  | own a stack hp htop hmem _ =>
      refine ⟨hw.holder, hw.bytes_le, hw.whole, fun hlock => ?_⟩
      exact hw.top (hmem (List.mem_of_mem_tail hlock))

/-- Nobody gets out of it. -/
theorem Wedged.step (hw : Wf capacity s) (hwedged : s.Wedged capacity)
    (h : s.step capacity a = some s') : s'.Wedged capacity := by
  obtain ⟨hfull, p, hp, hloop⟩ := hwedged
  have hheld : s.holder = some p := (hw.holder p).1 hp
  -- The run loop thread is inside `send`, or at the lock of `process_callbacks`.
  have hstuck : s.sends .runLoop = none → ∃ rest, s.stack = .locking :: rest := by
    intro hnone
    rcases hloop with rfl | ⟨_, hawaits⟩
    · simp [hp] at hnone
    · rcases awaitsMutex_iff.1 hawaits with ⟨c, hc⟩ | ⟨_, hs⟩
      · simp [hc] at hnone
      · exact hs
  cases step_cases h with
  | send q c hq huser =>
      have hqp : p ≠ q := by
        rintro rfl
        simp [hq] at hp
      have hqloop : .runLoop ≠ q := by
        rintro rfl
        obtain ⟨rest, hs⟩ := hstuck hq
        exact not_locking_of_userCode (huser rfl) rest hs
      refine ⟨hfull, p, by simpa [Function.update_of_ne hqp] using hp, hloop.imp_right ?_⟩
      rintro ⟨hh, hawaits⟩
      have hsame : awaitsMutex { s with sends := Function.update s.sends q (some (.lock c)) } =
          s.awaitsMutex := awaitsMutex_congr (by simp [Function.update_of_ne hqloop]) rfl
      exact ⟨hh, hsame.trans hawaits⟩
  | lock q c hq hh => simp [hheld] at hh
  | write q hq hroom => exact absurd hroom (Nat.not_le.2 hfull)
  | looperCb hnone hpoll _ =>
      obtain ⟨rest, hs⟩ := hstuck hnone
      exact absurd hs (not_locking_of_polling hpoll rest)
  | drain rest hnone hh hs => simp [hheld] at hh
  | own a stack hnone htop _ _ =>
      obtain ⟨rest, hs⟩ := hstuck hnone
      exact absurd hs (htop rest)

theorem not_wedged_step (hw : Wf capacity s) (hnot : ¬ s.Wedged capacity)
    (hroomy : s.Roomy capacity a) (h : s.step capacity a = some s') : ¬ s'.Wedged capacity := by
  rintro ⟨hfull, p, hp, hloop⟩
  cases step_cases h with
  | send q c hq huser =>
      have hpq : p ≠ q := by
        rintro rfl
        simp at hp
      simp only [Function.update_of_ne hpq] at hp
      have hheld := (hw.holder p).1 hp
      cases q with
      | runLoop => simp [hroomy hfull] at hheld
      | background t =>
          refine hnot ⟨hfull, p, hp, hloop.imp_right fun hh => ⟨hheld, ?_⟩⟩
          rw [← hh.2]
          exact (awaitsMutex_congr (by simp) rfl).symm
  | lock q c hq hh =>
      by_cases hpq : p = q
      · subst hpq
        cases p with
        | runLoop => exact hroomy hfull
        | background t =>
            rcases hloop with hloop | ⟨_, hawaits⟩
            · cases hloop
            · have hfree := (awaitsMutex_congr (by simp) rfl).trans (hroomy hfull)
              cases hawaits.symm.trans hfree
      · simp only [Function.update_of_ne hpq] at hp
        simp [(hw.holder p).1 hp] at hh
  | write q hq hroom =>
      have hpq : p ≠ q := by
        rintro rfl
        simp at hp
      simp only [Function.update_of_ne hpq] at hp
      exact hpq (Option.some.inj (((hw.holder p).1 hp).symm.trans ((hw.holder q).1 hq)))
  | looperCb hnone hpoll hbytes =>
      have hwhole := hw.whole
      have hle := hw.bytes_le
      simp only [Full] at hfull
      omega
  | drain rest hnone hh hs => simp [(hw.holder p).1 hp] at hh
  | own a stack hnone htop hmem _ =>
      rcases hloop with rfl | ⟨_, hawaits⟩
      · simp [hnone] at hp
      · rcases awaitsMutex_iff.1 hawaits with ⟨c, hc⟩ | ⟨_, rest, hs⟩
        · simp [hnone] at hc
        · exact hw.top (hmem (by simp only at hs; simp [hs]))

theorem wedged_step (hw : Wf capacity s) (hroomy : ¬ s.Roomy capacity a)
    (h : s.step capacity a = some s') : s'.Wedged capacity := by
  cases step_cases h with
  | send q c hq huser =>
      cases q with
      | background t => exact absurd trivial hroomy
      | runLoop =>
          obtain ⟨hfull, hheld⟩ := Classical.not_imp.1 hroomy
          obtain ⟨p, hp⟩ := Option.ne_none_iff_exists'.1 hheld
          have hwrites := (hw.holder p).2 hp
          have hpq : p ≠ .runLoop := by
            rintro rfl
            simp [hq] at hwrites
          refine ⟨hfull, p, by simpa [Function.update_of_ne hpq] using hwrites, .inr ⟨hp, ?_⟩⟩
          exact awaitsMutex_iff.2 (.inl ⟨c, by simp⟩)
  | lock q c hq hh =>
      cases q with
      | runLoop => exact ⟨Classical.not_not.1 hroomy, .runLoop, by simp, .inl rfl⟩
      | background t =>
          obtain ⟨hfull, hawaits⟩ := Classical.not_imp.1 hroomy
          rw [Bool.not_eq_false] at hawaits
          exact ⟨hfull, .background t, by simp,
            .inr ⟨rfl, (awaitsMutex_congr (by simp) rfl).trans hawaits⟩⟩
  | write | looperCb | drain => exact absurd trivial hroomy
  | own a stack _ _ _ hr => exact absurd hr hroomy

end Steps

/-! ## Every run -/

section Runs

variable [DecidableEq θ] {capacity : Nat}

theorem Wf.init : Wf capacity (pipeSystem θ κ capacity).init where
  holder := by simp [pipeSystem]
  bytes_le := Nat.zero_le _
  whole := ⟨0, rfl⟩
  top := by simp [pipeSystem]

theorem wedged_step_iff {s s' : SelfPipe θ κ} {a : PipeAct θ κ} (hw : Wf capacity s)
    (h : s.step capacity a = some s') :
    ¬ s'.Wedged capacity ↔ ¬ s.Wedged capacity ∧ s.Roomy capacity a := by
  constructor
  · intro hnot
    refine ⟨fun hwedged => hnot (hwedged.step hw h), ?_⟩
    exact Classical.byContradiction fun hroomy => hnot (wedged_step hw hroomy h)
  · rintro ⟨hnot, hroomy⟩
    exact not_wedged_step hw hnot hroomy h

end Runs

end SelfPipe

/-- **Sending never wedges the Android loop**, for any capacity of the pipe, exactly where no step
of the run takes or awaits the mutex against a full pipe: the run loop thread does not take it to
send, nor go for it while somebody holds it, and nobody takes it while the run loop thread waits
for it. A wedged loop stays wedged. -/
theorem send_never_wedges_iff [DecidableEq θ] (capacity : Nat) (as : List (PipeAct θ κ))
    (s : SelfPipe θ κ) (h : (pipeSystem θ κ capacity).run {} as = some s) :
    (¬ s.Wedged capacity ↔
      (pipeSystem θ κ capacity).runVia (fun s a => s.Roomy capacity a) {} as = some s) ∧
    (s.Wedged capacity → ∀ (bs : List (PipeAct θ κ)) (s' : SelfPipe θ κ),
      (pipeSystem θ κ capacity).run s bs = some s' → s'.Wedged capacity) := by
  have hrun : ∀ {s₁ s₂ : SelfPipe θ κ} {bs : List (PipeAct θ κ)}, s₁.Wf capacity →
      (pipeSystem θ κ capacity).run s₁ bs = some s₂ → (¬ s₂.Wedged capacity ↔ ¬ s₁.Wedged capacity ∧
        (pipeSystem θ κ capacity).runVia (fun s a => s.Roomy capacity a) s₁ bs = some s₂) :=
    System.runVia_iff_of_keeps (S := pipeSystem θ κ capacity) (I := SelfPipe.Wf capacity)
      (fun _ _ _ hw hst => hw.step hst) fun _ _ _ hw hst => SelfPipe.wedged_step_iff hw hst
  have hinit : ¬ SelfPipe.Wedged capacity (pipeSystem θ κ capacity).init := by
    rintro ⟨_, p, hp, _⟩
    cases hp
  refine ⟨(hrun .init h).trans (and_iff_right hinit), fun hwedged bs s' hbs => ?_⟩
  have hw : s.Wf capacity := System.Reachable.invariant (S := pipeSystem θ κ capacity) .init
    (fun _ _ _ _ hw hst => hw.step hst) (System.reachVia_runVia .init h)
  exact Classical.byContradiction fun hnot => ((hrun hw hbs).1 hnot).1 hwedged

/-- A callback and another thread send; the callback's message is written while the other thread
waits for the mutex. -/
def twoSendersRun : List (PipeAct Nat Nat) :=
  [.send (.background 0) 1, .lock (.background 0), .write (.background 0), .looperCb, .drain, .next,
    .send .runLoop 2, .send (.background 1) 3, .lock .runLoop, .write .runLoop,
    .lock (.background 1), .write (.background 1), .finish, .next]

theorem send_never_wedges_two : ∃ s : SelfPipe Nat Nat,
    s.bytes = 16 ∧ s.callbacks = [2, 3] ∧ ¬ s.Wedged 65536 := by
  have hvia : ((pipeSystem Nat Nat 65536).runVia (fun s a => s.Roomy 65536 a) {}
      twoSendersRun).map (fun s => (s.bytes, s.callbacks)) = some (16, [2, 3]) := by decide
  obtain ⟨s, hs, heq⟩ := Option.map_eq_some_iff.1 hvia
  rw [Prod.mk.injEq] at heq
  exact ⟨s, heq.1, heq.2, (send_never_wedges_iff 65536 _ s (System.run_of_runVia hs)).1.2 hs⟩

/-- The run loop thread sends `n` callbacks in a row. -/
def sendAll (θ : Type) (n : Nat) (c : κ) : List (PipeAct θ κ) :=
  (List.replicate n [.send .runLoop c, .lock .runLoop, .write .runLoop]).flatten

/-- The run loop thread takes the mutex to send. -/
theorem run_lock [DecidableEq θ] {capacity : Nat} {s : SelfPipe θ κ} (c : κ)
    (hp : s.sends .runLoop = none) (hh : s.holder = none) (hu : s.userCode = true) :
    (pipeSystem θ κ capacity).run s [.send .runLoop c, .lock .runLoop] =
      some { s with
        callbacks := s.callbacks ++ [c],
        holder := some .runLoop,
        sends := Function.update s.sends .runLoop (some .write) } := by
  simp [pipeSystem, SelfPipe.step, SelfPipe.send, SelfPipe.lock, hp, hh, hu, System.run,
    System.runVia]

theorem run_sendAll [DecidableEq θ] {capacity : Nat} {s : SelfPipe θ κ} (c : κ)
    (hp : s.sends .runLoop = none) (hh : s.holder = none) (hu : s.userCode = true) (n : Nat)
    (hroom : s.bytes + 8 * n ≤ capacity) :
    (pipeSystem θ κ capacity).run s (sendAll θ n c) =
      some { s with bytes := s.bytes + 8 * n, callbacks := s.callbacks ++ List.replicate n c } := by
  induction n generalizing s with
  | zero => simp [sendAll, System.run, System.runVia]
  | succ n ih =>
      have hsend : (pipeSystem θ κ capacity).run s
          [.send .runLoop c, .lock .runLoop, .write .runLoop] =
            some { s with bytes := s.bytes + 8, callbacks := s.callbacks ++ [c] } := by
        have hfits : s.bytes + 8 ≤ capacity := by omega
        have hback : Function.update s.sends .runLoop none = s.sends := by
          rw [← hp, Function.update_eq_self]
        simp [pipeSystem, SelfPipe.step, SelfPipe.send, SelfPipe.lock,
          SelfPipe.write, hp, hh, hu, hfits, hback, System.run, System.runVia]
      rw [sendAll, List.replicate_succ, List.flatten_cons, System.run_append, hsend]
      refine (ih (s := { s with bytes := s.bytes + 8, callbacks := s.callbacks ++ [c] }) hp hh hu
        (by simp only; omega)).trans ?_
      have hbytes : s.bytes + 8 + 8 * n = s.bytes + 8 * (n + 1) := by omega
      simp only [List.replicate_succ, List.append_assoc, List.singleton_append, hbytes]

/-- One more send than the pipe holds blocks the run loop thread on its own pipe. -/
theorem sendAll_wedges [DecidableEq θ] {capacity : Nat} {s : SelfPipe θ κ} (c : κ)
    (hp : s.sends .runLoop = none) (hh : s.holder = none) (hu : s.userCode = true) (n : Nat)
    (hroom : s.bytes + 8 * n ≤ capacity) (hfull : capacity < s.bytes + 8 * n + 8) :
    ∃ s', (pipeSystem θ κ capacity).run s
      (sendAll θ n c ++ [.send .runLoop c, .lock .runLoop]) = some s' ∧ s'.Wedged capacity := by
  let filled : SelfPipe θ κ :=
    { s with bytes := s.bytes + 8 * n, callbacks := s.callbacks ++ List.replicate n c }
  have hlast : (pipeSystem θ κ capacity).run filled [.send .runLoop c, .lock .runLoop] = some _ :=
    run_lock c hp hh hu
  rw [System.run_append, run_sendAll c hp hh hu n hroom]
  exact ⟨_, hlast, hfull, .runLoop, by simp, .inl rfl⟩

/-- A callback begins, sent by another thread. -/
def callbackRun : List (PipeAct Unit Unit) :=
  [.send (.background ()) (), .lock (.background ()), .write (.background ()), .looperCb, .drain,
    .next]

theorem callback_begins {capacity : Nat} (h : 8 ≤ capacity) :
    ∃ s, (pipeSystem Unit Unit capacity).run {} callbackRun = some s ∧
      s.sends .runLoop = none ∧ s.holder = none ∧ s.userCode = true ∧ s.bytes = 0 := by
  refine ⟨_, by simp [callbackRun, pipeSystem, System.run, System.runVia, SelfPipe.step,
    SelfPipe.send, SelfPipe.lock, SelfPipe.write, SelfPipe.looperCb, SelfPipe.polling,
    SelfPipe.drain, SelfPipe.next, h]; rfl, ?_⟩
  exact ⟨rfl, rfl, rfl, rfl⟩

/-- One callback that sends 8193 times fills a pipe of 64 KiB, and blocks on it with the mutex. -/
theorem callback_fills_pipe : ∃ s : SelfPipe Unit Unit,
    (pipeSystem Unit Unit 65536).run {}
      (callbackRun ++ (sendAll Unit 8192 () ++ [.send .runLoop (), .lock .runLoop])) = some s ∧
    s.Wedged 65536 := by
  obtain ⟨s, hrun, hp, hh, hu, hb⟩ := callback_begins (by decide : 8 ≤ 65536)
  have hroom : s.bytes + 8 * 8192 ≤ 65536 := by omega
  have hfull : 65536 < s.bytes + 8 * 8192 + 8 := by omega
  obtain ⟨s', hall, hwedged⟩ := sendAll_wedges () hp hh hu 8192 hroom hfull
  refine ⟨s', ?_, hwedged⟩
  rw [System.run_append, hrun, Option.bind_some]
  exact hall

end Wxp.RunLoop
