import Wxp.Page.Exceptions
import Wxp.Foundations.Lists
import Mathlib.Data.List.TakeWhile
import Mathlib.Tactic.IntervalCases

/-!
# Page — Close

`Channel.close()` (`src/initialization.rs`), called by the page between two scripts or by
the handler itself. Closing takes the channel out of `callbacks`, so no later script finds
it. But the handler that closes is called by the callback or by the loop of
`_drainPendingMessages`, and neither looks at `_alive` before the next call.

What the handler does at a call is an arbitrary function of the messages it has been
called with so far. Until a call closes or throws the channel flows (`Runs`); a call that
throws without closing leaves it halted (`Halts`); one that closes ends it (`Ends`), and
goes on to the messages that waited.

Result: `close_is_final_iff`.
-/

namespace Wxp.Page

universe u

variable {μ : Type u}

/-- What happens to the channel: a script of the Rust side runs, or the page closes it. -/
inductive PageEvent (μ : Type u)
  | script (raw : RawMessage μ)
  | close

def PageEvent.isClose : PageEvent μ → Bool
  | .close => true
  | .script _ => false

/-- The message that arrives, with its index. -/
def PageEvent.message? : PageEvent μ → Option (μ × Nat)
  | .script raw => raw.message?
  | .close => none

namespace Channel

variable {handler : List μ → Reaction} {A : Nat → μ → Prop} {c c' : Channel μ}

def respond (c : Channel μ) : PageEvent μ → Channel μ
  | .script raw => c.runCallback raw
  | .close => c.close

/-- `new Channel(handler)` and what happens to it. -/
def live (handler : List μ → Reaction) (events : List (PageEvent μ)) : Channel μ :=
  events.foldl respond { onmessage := some handler }

/-! ## What is to hold, and when it does -/

/-- Once a call of the handler has closed the channel, or the page has, the handler is not
called again. -/
def CloseIsFinal (handler : List μ → Reaction) (events : List (PageEvent μ)) : Prop :=
  (∀ k < (live handler events).handled.length,
    (handler ((live handler events).handled.take (k + 1))).closes = true →
    (live handler events).handled.length = k + 1) ∧
  ∀ seen, seen ++ [.close] <+: events →
    (live handler events).handled = (live handler seen).handled

/-- The messages that have arrived, with their indices. -/
def arrivals (events : List (PageEvent μ)) : List (μ × Nat) := events.filterMap PageEvent.message?

/-- The messages 0, …, `k` have all arrived. -/
def Complete (events : List (PageEvent μ)) (k : Nat) : Prop :=
  ∀ i ≤ k, ∃ m, (m, i) ∈ arrivals events

/-- What happens before the page closes the channel. -/
def opening (events : List (PageEvent μ)) : List (PageEvent μ) :=
  events.takeWhile fun e => !e.isClose

/-- The call for message `k` is made, closes the channel and returns, and message `k + 1` has
arrived before all of 0, …, `k` had, so that it is waiting. -/
structure SuccessorWaits (handler : List μ → Reaction) (messages : List μ)
    (events : List (PageEvent μ)) (k : Nat) : Prop where
  quiet : ∀ j < k, handler (messages.take (j + 1)) = {}
  closes : (handler (messages.take (k + 1))).closes = true
  returns : (handler (messages.take (k + 1))).throws = false
  complete : Complete (opening events) k
  waits : ∃ seen m, seen ++ [.script (.message m (k + 1))] <+: opening events ∧ ¬ Complete seen k

/-! ## Between two events -/

/-- No call of the handler has closed or thrown yet: a reorder buffer. -/
structure Runs (handler : List μ → Reaction) (A : Nat → μ → Prop) (c : Channel μ) : Prop where
  registered : c.registered = true
  alive : c.alive = true
  handler_eq : c.onmessage = some handler
  next : c.nextMessageIndex = c.handled.length
  reorders : Reorders A c.handled fun i => c.pendingMessages.lookup i
  quiet : ∀ k < c.handled.length, handler (c.handled.take (k + 1)) = {}

/-- The latest call has thrown, without closing: the index that is due has been handled. -/
structure Halts (handler : List μ → Reaction) (A : Nat → μ → Prop) (c : Channel μ) : Prop where
  registered : c.registered = true
  alive : c.alive = true
  next : c.handled.length = c.nextMessageIndex + 1
  passed : ∀ i m, c.handled[i]? = some m → A i m
  drained : c.pendingMessages.lookup c.nextMessageIndex = none
  quiet : ∀ k < c.nextMessageIndex, handler (c.handled.take (k + 1)) = {}
  unclosed : (handler c.handled).closes = false
  thrown : (handler c.handled).throws = true

/-- The channel is closed. -/
structure Gone (c : Channel μ) : Prop where
  alive : c.alive = false
  registered : c.registered = false

/-- The call for message `k` was the first that closed or threw, and it closed. After it the
handler was called again exactly if it returned and the next message had arrived. -/
structure Ends (handler : List μ → Reaction) (A : Nat → μ → Prop) (k : Nat) (c : Channel μ) :
    Prop where
  gone : c.Gone
  called : k < c.handled.length
  passed : ∀ i m, c.handled[i]? = some m → A i m
  quiet : ∀ j < k, handler (c.handled.take (j + 1)) = {}
  closes : (handler (c.handled.take (k + 1))).closes = true
  last : c.handled.length = k + 1 ↔
    (handler (c.handled.take (k + 1))).throws = true ∨ ∀ m, ¬ A (k + 1) m

/-- What one script of the channel does; `k` is the number of calls before it. -/
inductive Outcome (handler : List μ → Reaction) (A : Nat → μ → Prop) (k : Nat) :
    Except (Channel μ) (Channel μ) → Prop
  | runs {c : Channel μ} : Runs handler A c →
      c.pendingMessages.lookup c.nextMessageIndex = none → Outcome handler A k (.ok c)
  | halts {c : Channel μ} : Halts handler A c → Outcome handler A k (.error c)
  | returned {c : Channel μ} {j : Nat} : k ≤ j → Ends handler A j c → Outcome handler A k (.ok c)
  | thrown {c : Channel μ} {j : Nat} : k ≤ j → Ends handler A j c → Outcome handler A k (.error c)

/-! ## One call of the handler -/

@[simp] theorem close_handled (c : Channel μ) : c.close.handled = c.handled := by
  unfold close
  split <;> rfl

@[simp] theorem close_onmessage (c : Channel μ) : c.close.onmessage = c.onmessage := by
  unfold close
  split <;> rfl

@[simp] theorem close_pendingMessages (c : Channel μ) :
    c.close.pendingMessages = c.pendingMessages := by
  unfold close
  split <;> rfl

@[simp] theorem close_nextMessageIndex (c : Channel μ) :
    c.close.nextMessageIndex = c.nextMessageIndex := by
  unfold close
  split <;> rfl

/-- What a call of the handler leaves behind. -/
def called (handler : List μ → Reaction) (m : μ) (c : Channel μ) : Channel μ :=
  if (handler (c.handled ++ [m])).closes then
    close { c with handled := c.handled ++ [m] }
  else { c with handled := c.handled ++ [m] }

@[simp] theorem called_handled (m : μ) (c : Channel μ) :
    (c.called handler m).handled = c.handled ++ [m] := by
  unfold called
  split <;> simp

@[simp] theorem called_onmessage (m : μ) (c : Channel μ) :
    (c.called handler m).onmessage = c.onmessage := by
  unfold called
  split <;> simp

@[simp] theorem called_pendingMessages (m : μ) (c : Channel μ) :
    (c.called handler m).pendingMessages = c.pendingMessages := by
  unfold called
  split <;> simp

@[simp] theorem called_nextMessageIndex (m : μ) (c : Channel μ) :
    (c.called handler m).nextMessageIndex = c.nextMessageIndex := by
  unfold called
  split <;> simp

theorem callOnmessage_eq (hh : c.onmessage = some handler) (m : μ) :
    c.callOnmessage m =
      if (handler (c.handled ++ [m])).throws then .error (c.called handler m)
      else .ok (c.called handler m) := by
  simp [callOnmessage, hh, called]

theorem passed_concat {l : List μ} {m : μ} (hp : ∀ i n, l[i]? = some n → A i n)
    (hm : A l.length m) {i : Nat} {n : μ} (hi : (l ++ [m])[i]? = some n) : A i n := by
  rcases getElem?_append_new hi with hi | ⟨rfl, rfl⟩
  · exact hp i n hi
  · exact hm

theorem take_concat {l l' : List μ} {m : μ} : ((l ++ [m]) ++ l').take (l.length + 1) = l ++ [m] := by
  rw [List.take_append_of_le_length (by simp), List.take_of_length_le (by simp)]

/-! ## Calls after the channel was closed -/

theorem Gone.respond_eq (h : c.Gone) (e : PageEvent μ) : c.respond e = c := by
  cases e with
  | script raw => simp [Channel.respond, runCallback, h.registered]
  | close => simp [Channel.respond, close, h.alive]

theorem gone_close (c : Channel μ) (h : c.alive = true) : c.close.Gone := by
  simp only [close, h, if_true]
  exact ⟨rfl, rfl⟩

theorem Gone.called (h : c.Gone) (m : μ) : (c.called handler m).Gone := by
  unfold Channel.called
  split
  · simp only [close, h.alive, Bool.false_eq_true, if_false]
    exact ⟨rfl, h.registered⟩
  · exact ⟨h.alive, h.registered⟩

/-- The loop goes on in a closed channel: the handler is called with what waits. -/
theorem Gone.drainLoop {n : Nat} (h : c.Gone) (hh : c.onmessage = some handler)
    (hn : c.pendingMessages.keys.length ≤ n) (hnext : c.nextMessageIndex = c.handled.length)
    (hp : ∀ i m, c.handled[i]? = some m → A i m)
    (hk : ∀ i m, c.pendingMessages.lookup i = some m → A i m) :
    ∃ d, (Channel.drainLoop n c = .ok d ∨ Channel.drainLoop n c = .error d) ∧ d.Gone ∧
      (∀ i m, d.handled[i]? = some m → A i m) ∧ ∃ l, d.handled = c.handled ++ l ∧
        (l = [] ↔ c.pendingMessages.lookup c.nextMessageIndex = none) := by
  induction n generalizing c with
  | zero => exact ⟨c, .inl rfl, h, hp, [], by simp, by simp [lookup_eq_none_of_length hn]⟩
  | succ n ih =>
      cases hm : c.pendingMessages.lookup c.nextMessageIndex with
      | none => exact ⟨c, .inl (by simp [Channel.drainLoop, hm]), h, hp, [], by simp, by simp⟩
      | some m =>
          let c₀ : Channel μ :=
            { c with pendingMessages := c.pendingMessages.erase c.nextMessageIndex }
          -- the loop does not look at `_alive`, so the handler is called all the same
          have hg : (c₀.called handler m).Gone := Gone.called (c := c₀) ⟨h.alive, h.registered⟩ m
          have hp' : ∀ i n, (c₀.called handler m).handled[i]? = some n → A i n := by
            intro i n hi
            rw [called_handled] at hi
            exact passed_concat hp (hk _ _ (hnext ▸ hm)) hi
          have hcall := callOnmessage_eq (c := c₀) hh m
          by_cases ht : (handler (c₀.handled ++ [m])).throws = true
          · refine ⟨c₀.called handler m, .inr ?_, hg, hp', [m], by simp [c₀], by simp⟩
            rw [if_pos ht] at hcall
            simp [Channel.drainLoop, hm, c₀, hcall, bind, Except.bind]
          · rw [if_neg ht] at hcall
            have hk' : ∀ i n, (c.pendingMessages.erase c.nextMessageIndex).lookup i = some n →
                A i n := by
              intro i n hi
              by_cases hin : i = c.nextMessageIndex
              · rw [hin, AList.lookup_erase] at hi
                cases hi
              · exact hk i n (by rwa [AList.lookup_erase_ne hin] at hi)
            obtain ⟨d, hd, hdg, hdp, l, hl, -⟩ := ih
              (c := { c₀.called handler m with nextMessageIndex := c.nextMessageIndex + 1 })
              ⟨hg.alive, hg.registered⟩ (by simp [c₀, hh]) (by simpa [c₀] using length_erase_le hm hn)
              (by simp [c₀, hnext]) hp' (by simpa [c₀] using hk')
            refine ⟨d, ?_, hdg, hdp, m :: l, by simp [hl, c₀], by simp⟩
            simpa [Channel.drainLoop, hm, c₀, hcall, bind, Except.bind] using hd

/-! ## One script -/

/-- The handler is about to be called with `m`, before anything has closed or thrown. -/
structure Due (handler : List μ → Reaction) (A : Nat → μ → Prop) (m : μ) (c : Channel μ) :
    Prop where
  registered : c.registered = true
  alive : c.alive = true
  handler_eq : c.onmessage = some handler
  next : c.nextMessageIndex = c.handled.length
  reorders : Reorders A (c.handled ++ [m]) fun i => c.pendingMessages.lookup i
  taken : c.pendingMessages.lookup c.nextMessageIndex = none
  quiet : ∀ k < c.handled.length, handler (c.handled.take (k + 1)) = {}

theorem Outcome.mono {k k' : Nat} {r : Except (Channel μ) (Channel μ)}
    (h : Outcome handler A k' r) (hk : k ≤ k') : Outcome handler A k r := by
  cases h with
  | runs hr hd => exact .runs hr hd
  | halts hh => exact .halts hh
  | returned hj he => exact .returned (hk.trans hj) he
  | thrown hj he => exact .thrown (hk.trans hj) he

theorem Due.quiet_before {m : μ} {l : List μ} (h : Due handler A m c) {j : Nat}
    (hj : j < c.handled.length) : handler (((c.handled ++ [m]) ++ l).take (j + 1)) = {} := by
  rw [List.append_assoc, List.take_append_of_le_length (by omega)]
  exact h.quiet j hj

/-- The next message has arrived if it waits. -/
theorem Due.waits {m : μ} (h : Due handler A m c) :
    c.pendingMessages.lookup (c.handled.length + 1) = none ↔ ∀ n, ¬ A (c.handled.length + 1) n := by
  constructor
  · intro hl n hn
    rcases h.reorders.covered _ n hn with hlt | hb
    · simp at hlt
    · exact hb hl
  · intro hn
    by_contra hl
    obtain ⟨n, hn'⟩ := Option.ne_none_iff_exists'.1 hl
    exact hn n (h.reorders.kept _ n hn')

/-- The call closes the channel. -/
theorem Due.ends {m : μ} (h : Due handler A m c)
    (hcloses : (handler (c.handled ++ [m])).closes = true) {d : Channel μ} {l : List μ}
    (hg : d.Gone) (hp : ∀ i n, d.handled[i]? = some n → A i n)
    (hd : d.handled = (c.handled ++ [m]) ++ l)
    (hl : l = [] ↔ (handler (c.handled ++ [m])).throws = true ∨
      ∀ n, ¬ A (c.handled.length + 1) n) : Ends handler A c.handled.length d := by
  refine ⟨hg, by simp [hd], hp, ?_, ?_, ?_⟩
  · rw [hd]
    exact fun j hj => h.quiet_before hj
  · rw [hd, take_concat]
    exact hcloses
  · rw [hd, take_concat, ← hl]
    simp

/-- The call and what it lets the loop go on with. -/
theorem Due.deliver {m : μ} {n : Nat} (h : Due handler A m c)
    (hn : c.pendingMessages.keys.length ≤ n)
    (ih : ∀ {c : Channel μ}, Runs handler A c → c.pendingMessages.keys.length ≤ n →
      Outcome handler A c.handled.length (Channel.drainLoop n c)) :
    Outcome handler A c.handled.length (c.callOnmessage m >>= fun d =>
      Channel.drainLoop n { d with nextMessageIndex := d.nextMessageIndex + 1 }) := by
  have hcall := callOnmessage_eq h.handler_eq m
  by_cases hcloses : (handler (c.handled ++ [m])).closes = true
  · have hg : (c.called handler m).Gone := by
      rw [called, if_pos hcloses]
      exact gone_close _ h.alive
    have hp : ∀ i n, (c.called handler m).handled[i]? = some n → A i n := by
      rw [called_handled]
      exact h.reorders.passed
    by_cases ht : (handler (c.handled ++ [m])).throws = true
    · rw [hcall, if_pos ht]
      exact .thrown le_rfl (h.ends hcloses hg hp (l := []) (by simp) (by simp [ht]))
    · rw [hcall, if_neg ht]
      have hset : (c.called handler m).onmessage = some handler := by simp [h.handler_eq]
      obtain ⟨d, hd, hdg, hdp, l, hl, hnil⟩ := Gone.drainLoop (A := A) (n := n)
        (c := { c.called handler m with nextMessageIndex := (c.called handler m).nextMessageIndex + 1 })
        ⟨hg.alive, hg.registered⟩ hset (by simpa using hn) (by simp [h.next]) hp
        (by simpa using h.reorders.kept)
      have he : Ends handler A c.handled.length d := by
        refine h.ends hcloses hdg hdp (by simpa using hl) ?_
        rw [hnil, called_pendingMessages, called_nextMessageIndex, h.next, h.waits]
        simp [ht]
      rcases hd with hd | hd
      · show Outcome _ _ _ (Channel.drainLoop n _)
        rw [hd]
        exact .returned le_rfl he
      · show Outcome _ _ _ (Channel.drainLoop n _)
        rw [hd]
        exact .thrown le_rfl he
  -- a throw leaves the index where it is, and with that the channel stuck
  · have hcalled : c.called handler m = { c with handled := c.handled ++ [m] } := if_neg hcloses
    by_cases ht : (handler (c.handled ++ [m])).throws = true
    · rw [hcall, if_pos ht, hcalled]
      refine .halts ⟨h.registered, h.alive, by simp [h.next], h.reorders.passed, h.taken,
        ?_, by simpa using hcloses, ht⟩
      intro k hk
      simpa using h.quiet_before (l := []) (h.next ▸ hk)
    · rw [hcall, if_neg ht, hcalled]
      have hquiet : handler (c.handled ++ [m]) = {} := by
        cases hr : handler (c.handled ++ [m]) with
        | mk closes throws => simp_all
      have hr : Runs handler A { c with
          handled := c.handled ++ [m]
          nextMessageIndex := c.nextMessageIndex + 1 } := by
        refine ⟨h.registered, h.alive, h.handler_eq, by simp [h.next], h.reorders, fun k hk => ?_⟩
        simp only [List.length_append, List.length_singleton] at hk
        rcases Nat.lt_or_ge k c.handled.length with hlt | hge
        · simpa using h.quiet_before (l := []) hlt
        · rw [List.take_of_length_le (by simp; omega)]
          exact hquiet
      exact (ih hr hn).mono (by simp)

/-- The loop goes on until nothing waits, or a call closes or throws. -/
theorem Runs.drainLoop {n : Nat} (h : Runs handler A c)
    (hn : c.pendingMessages.keys.length ≤ n) :
    Outcome handler A c.handled.length (Channel.drainLoop n c) := by
  induction n generalizing c with
  | zero => exact .runs h (lookup_eq_none_of_length hn _)
  | succ n ih =>
      cases hm : c.pendingMessages.lookup c.nextMessageIndex with
      | none =>
          simp only [Channel.drainLoop, hm]
          exact .runs h hm
      | some m =>
          have hdue : Due handler A m
              { c with pendingMessages := c.pendingMessages.erase c.nextMessageIndex } := by
            refine ⟨h.registered, h.alive, h.handler_eq, h.next, ?_, AList.lookup_erase _ _, h.quiet⟩
            refine h.reorders.take (h.next ▸ hm) ?_ fun j hj => ?_
            · simp [h.next]
            · exact AList.lookup_erase_ne (h.next ▸ hj)
          simp only [Channel.drainLoop, hm]
          exact hdue.deliver (length_erase_le hm hn) ih

/-- What a script did is not changed by looking at the end of the channel. -/
theorem Outcome.finish {k : Nat} {r : Except (Channel μ) (Channel μ)}
    {f : Channel μ → Except (Channel μ) (Channel μ)} (h : Outcome handler A k r)
    (hf : ∀ c : Channel μ, f c = .ok c ∨ c.alive = false ∧ f c = .ok c.unregister) :
    Outcome handler A k (r >>= f) := by
  cases h with
  | @runs c hr hd =>
      rcases hf c with hc | ⟨ha, -⟩
      · show Outcome _ _ _ (f c)
        rw [hc]
        exact .runs hr hd
      · rw [hr.alive] at ha
        cases ha
  | halts hh => exact .halts hh
  | @returned c j hj he =>
      show Outcome _ _ _ (f c)
      rcases hf c with hc | ⟨-, hc⟩
      · rw [hc]
        exact .returned hj he
      · rw [hc]
        exact .returned hj ⟨⟨he.gone.alive, rfl⟩, he.called, he.passed, he.quiet, he.closes, he.last⟩
  | thrown hj he => exact .thrown hj he

theorem drainPendingMessages_eq : ∃ f : Channel μ → Except (Channel μ) (Channel μ),
    (∀ c, f c = .ok c ∨ c.alive = false ∧ f c = .ok c.unregister) ∧
    ∀ c : Channel μ, c.drainPendingMessages =
      Channel.drainLoop c.pendingMessages.keys.length c >>= f := by
  refine ⟨_, ?_, fun c => rfl⟩
  intro c
  cases c.messageEndIndex with
  | none => exact .inl rfl
  | some e =>
      by_cases he : e ≤ c.nextMessageIndex ∧ !c.alive
      · exact .inr ⟨by simpa using he.2, if_pos he⟩
      · exact .inl (if_neg he)

/-- The message that is due. -/
theorem Runs.onRawMessage_next (h : Runs handler A c)
    (hd : c.pendingMessages.lookup c.nextMessageIndex = none) (m : μ) :
    Outcome handler (fun i n => A i n ∨ (i = c.nextMessageIndex ∧ n = m)) c.handled.length
      (c.onRawMessage (.message m c.nextMessageIndex)) := by
  have hdue : Due handler (fun i n => A i n ∨ (i = c.nextMessageIndex ∧ n = m)) m c := by
    refine ⟨h.registered, h.alive, h.handler_eq, h.next, ?_, hd, h.quiet⟩
    rw [h.next]
    exact h.reorders.arrive_next m
  obtain ⟨f, hf, hdrain⟩ := drainPendingMessages_eq (μ := μ)
  have hon : c.onRawMessage (.message m c.nextMessageIndex) =
      (c.callOnmessage m >>= fun d => Channel.drainLoop c.pendingMessages.keys.length
        { d with nextMessageIndex := d.nextMessageIndex + 1 }) >>= f := by
    simp only [onRawMessage, if_true, hdrain, callOnmessage_eq h.handler_eq]
    split
    · rfl
    · show Channel.drainLoop (c.called handler m).pendingMessages.keys.length _ >>= f = _
      have hkeys : (c.called handler m).pendingMessages.keys.length =
          c.pendingMessages.keys.length := by rw [called_pendingMessages]
      rw [hkeys]
      rfl
  rw [hon]
  exact (hdue.deliver le_rfl Runs.drainLoop).finish hf

/-- The end of the channel drains nothing where nothing that is due waits. -/
theorem onRawMessage_ended_eq (ha : c.alive = true)
    (hd : c.pendingMessages.lookup c.nextMessageIndex = none) (i : Nat) :
    c.onRawMessage (.ended i) = .ok { c with messageEndIndex := some i } := by
  have hloop : ∀ n, Channel.drainLoop n { c with messageEndIndex := some i } =
      .ok { c with messageEndIndex := some i } := by
    intro n
    cases n with
    | zero => rfl
    | succ n => simp [Channel.drainLoop, hd]
  simp only [onRawMessage, drainPendingMessages, hloop, bind, Except.bind]
  simp [ha]

/-! ## All events before the page closes the channel -/

/-- What has arrived, by index. -/
def ArrivedIn (events : List (PageEvent μ)) (i : Nat) (m : μ) : Prop := (m, i) ∈ arrivals events

/-- The channel after `events`. If a call has closed it, then in the script that completed the
messages up to that call. -/
inductive Phase (handler : List μ → Reaction) (events : List (PageEvent μ)) (c : Channel μ) : Prop
  | runs : Runs handler (ArrivedIn events) c →
      c.pendingMessages.lookup c.nextMessageIndex = none → Phase handler events c
  | halts : Halts handler (ArrivedIn events) c → Phase handler events c
  | ends (seen : List (PageEvent μ)) (m : μ) (i k : Nat) :
      seen ++ [.script (.message m i)] <+: events → i ≤ k → ¬ Complete seen k →
      Ends handler (ArrivedIn (seen ++ [.script (.message m i)])) k c → Phase handler events c

theorem arrivals_concat (events : List (PageEvent μ)) (e : PageEvent μ) :
    arrivals (events ++ [e]) = arrivals events ++ e.message?.toList := by
  unfold arrivals
  rw [List.filterMap_append]
  cases h : e.message? <;> simp [h]

theorem arrivedIn_message (events : List (PageEvent μ)) (m : μ) (i : Nat) :
    ArrivedIn (events ++ [.script (.message m i)]) =
      fun j n => ArrivedIn events j n ∨ (j = i ∧ n = m) := by
  funext j n
  simp [ArrivedIn, arrivals_concat, PageEvent.message?, RawMessage.message?, and_comm]

theorem arrivedIn_ended (events : List (PageEvent μ)) (i : Nat) :
    ArrivedIn (events ++ [.script (.ended i)]) = ArrivedIn events := by
  funext j n
  simp [ArrivedIn, arrivals_concat, PageEvent.message?, RawMessage.message?]

theorem live_concat (events : List (PageEvent μ)) (e : PageEvent μ) :
    live handler (events ++ [e]) = (live handler events).respond e := by
  simp [live]

/-- A message that is not due waits. -/
theorem Runs.insert {i : Nat} (h : Runs handler A c)
    (hd : c.pendingMessages.lookup c.nextMessageIndex = none) (m : μ)
    (hi : i ≠ c.nextMessageIndex) :
    Runs handler (fun j n => A j n ∨ (j = i ∧ n = m))
      { c with pendingMessages := c.pendingMessages.insert i m } ∧
    (c.pendingMessages.insert i m).lookup c.nextMessageIndex = none := by
  refine ⟨⟨h.registered, h.alive, h.handler_eq, h.next, ?_, h.quiet⟩, ?_⟩
  · exact h.reorders.arrive_other i m (AList.lookup_insert _) fun j hj => AList.lookup_insert_ne hj
  · rw [AList.lookup_insert_ne (Ne.symm hi)]
    exact hd

/-- Nothing that is due has arrived yet. -/
theorem Runs.missing (h : Runs handler A c)
    (hd : c.pendingMessages.lookup c.nextMessageIndex = none) (m : μ) :
    ¬ A c.handled.length m :=
  (h.reorders.contiguousPrefix (h.next ▸ hd)).longest m

theorem Phase.runs_message {events : List (PageEvent μ)} (h : Runs handler (ArrivedIn events) c)
    (hd : c.pendingMessages.lookup c.nextMessageIndex = none) (m : μ) (i : Nat) :
    Phase handler (events ++ [.script (.message m i)]) (c.runCallback (.message m i)) := by
  by_cases hi : i = c.nextMessageIndex
  · have hout := h.onRawMessage_next hd m
    rw [← hi, ← arrivedIn_message] at hout
    have hmissing : ∀ {j}, c.handled.length ≤ j → ¬ Complete events j := fun hj hc => by
      obtain ⟨n, hn⟩ := hc _ hj
      exact h.missing hd n hn
    have hle : ∀ {j}, c.handled.length ≤ j → i ≤ j := fun hj => by rwa [hi, h.next]
    rw [runCallback, if_pos h.registered]
    cases hraw : c.onRawMessage (.message m i) with
    | ok d =>
        rw [hraw] at hout
        cases hout with
        | runs hr hd => exact .runs hr hd
        | returned hj he => exact .ends events m i _ List.prefix_rfl (hle hj) (hmissing hj) he
    | error d =>
        rw [hraw] at hout
        cases hout with
        | halts hh => exact .halts hh
        | thrown hj he => exact .ends events m i _ List.prefix_rfl (hle hj) (hmissing hj) he
  · obtain ⟨hr, hd'⟩ := h.insert hd m hi
    rw [← arrivedIn_message] at hr
    have hrun : c.runCallback (.message m i) =
        { c with pendingMessages := c.pendingMessages.insert i m } :=
      runCallback_ok h.registered (if_neg hi)
    exact hrun ▸ .runs hr hd'

theorem Phase.runs_ended {events : List (PageEvent μ)} (h : Runs handler (ArrivedIn events) c)
    (hd : c.pendingMessages.lookup c.nextMessageIndex = none) (i : Nat) :
    Phase handler (events ++ [.script (.ended i)]) (c.runCallback (.ended i)) := by
  rw [runCallback_ok h.registered (onRawMessage_ended_eq h.alive hd i)]
  refine .runs ?_ hd
  rw [arrivedIn_ended]
  exact ⟨h.registered, h.alive, h.handler_eq, h.next, h.reorders, h.quiet⟩

theorem Phase.halts_message {events : List (PageEvent μ)} (h : Halts handler (ArrivedIn events) c)
    (m : μ) {i : Nat} (hnew : ∀ n, ¬ ArrivedIn events i n) :
    Phase handler (events ++ [.script (.message m i)]) (c.runCallback (.message m i)) := by
  have hi : i ≠ c.nextMessageIndex := by
    rintro rfl
    have hlt : c.nextMessageIndex < c.handled.length := by
      have := h.next
      omega
    exact hnew _ (h.passed _ _ (List.getElem?_eq_getElem hlt))
  have hrun : c.runCallback (.message m i) =
      { c with pendingMessages := c.pendingMessages.insert i m } :=
    runCallback_ok h.registered (if_neg hi)
  rw [hrun]
  refine .halts ⟨h.registered, h.alive, h.next, ?_, ?_, h.quiet, h.unclosed, h.thrown⟩
  · rw [arrivedIn_message]
    exact fun j n hj => .inl (h.passed j n hj)
  · rw [AList.lookup_insert_ne (Ne.symm hi)]
    exact h.drained

theorem Phase.halts_ended {events : List (PageEvent μ)} (h : Halts handler (ArrivedIn events) c)
    (i : Nat) : Phase handler (events ++ [.script (.ended i)]) (c.runCallback (.ended i)) := by
  rw [runCallback_ok h.registered (onRawMessage_ended_eq h.alive h.drained i)]
  refine .halts ?_
  rw [arrivedIn_ended]
  exact ⟨h.registered, h.alive, h.next, h.passed, h.drained, h.quiet, h.unclosed, h.thrown⟩

theorem phase_new (handler : List μ → Reaction) : Phase handler [] (live handler []) :=
  .runs ⟨rfl, rfl, rfl, rfl, Reorders.empty.congr fun i m => by simp [ArrivedIn, arrivals],
    by simp [live]⟩ rfl

/-- One more script; its message has not arrived before. -/
theorem Phase.script {events : List (PageEvent μ)} (h : Phase handler events c) (raw : RawMessage μ)
    (hnew : ∀ m i, raw = .message m i → ∀ n, ¬ ArrivedIn events i n) :
    Phase handler (events ++ [.script raw]) (c.runCallback raw) := by
  cases h with
  | runs hr hd =>
      cases raw with
      | message m i => exact .runs_message hr hd m i
      | ended i => exact .runs_ended hr hd i
  | halts hh =>
      cases raw with
      | message m i => exact .halts_message hh m (hnew m i rfl)
      | ended i => exact .halts_ended hh i
  | ends seen m i k hseen hi hk he =>
      have hrun : c.runCallback raw = c := he.gone.respond_eq (.script raw)
      rw [hrun]
      exact .ends seen m i k (hseen.trans (List.prefix_append _ _)) hi hk he

/-- Each message arrives at most once: the channel is in one of the phases as long as the page
does not close it. -/
theorem phase_live {events : List (PageEvent μ)} (hopen : ∀ e ∈ events, e.isClose = false)
    (hnodup : ((arrivals events).map Prod.snd).Nodup) :
    Phase handler events (live handler events) := by
  induction events using List.reverseRecOn with
  | nil => exact phase_new handler
  | append_singleton events e ih =>
      rw [arrivals_concat, List.map_append] at hnodup
      have ih := ih (fun e he => hopen e (List.mem_append_left _ he)) hnodup.of_append_left
      rw [live_concat]
      cases e with
      | close => exact absurd (hopen .close (by simp)) (by simp [PageEvent.isClose])
      | script raw =>
          refine ih.script raw ?_
          rintro m i rfl n hn
          -- the indices are distinct, so that the message of this script is new
          refine List.disjoint_of_nodup_append hnodup (a := i) ?_
            (by simp [PageEvent.message?, RawMessage.message?])
          exact List.mem_map.2 ⟨(n, i), hn, rfl⟩

/-! ## Events after the page has closed the channel -/

theorem Phase.close {events : List (PageEvent μ)} (h : Phase handler events c) : c.close.Gone := by
  cases h with
  | runs hr _ => exact gone_close c hr.alive
  | halts hh => exact gone_close c hh.alive
  | ends _ _ _ _ _ _ _ he =>
      have hc : c.close = c := he.gone.respond_eq .close
      rw [hc]
      exact he.gone

theorem Gone.foldl (h : c.Gone) (events : List (PageEvent μ)) : events.foldl respond c = c := by
  induction events with
  | nil => rfl
  | cons e events ih => rw [List.foldl_cons, h.respond_eq, ih]

theorem opening_append_close (seen rest : List (PageEvent μ)) :
    opening (seen ++ .close :: rest) = opening seen := by
  induction seen with
  | nil => rfl
  | cons e seen ih =>
      cases e with
      | close => rfl
      | script raw => exact congrArg (PageEvent.script raw :: ·) ih

theorem opening_open (events : List (PageEvent μ)) : ∀ e ∈ opening events, e.isClose = false := by
  intro e he
  simpa using List.mem_takeWhile_imp he

theorem prefix_opening (events : List (PageEvent μ)) : opening events <+: events :=
  List.takeWhile_prefix _

theorem prefix_arrivals {seen events : List (PageEvent μ)} (h : seen <+: events) :
    arrivals seen <+: arrivals events := by
  obtain ⟨rest, rfl⟩ := h
  exact ⟨arrivals rest, List.filterMap_append.symm⟩

theorem phase_opening {events : List (PageEvent μ)}
    (hnodup : ((arrivals events).map Prod.snd).Nodup) :
    Phase handler (opening events) (live handler (opening events)) := by
  refine phase_live (opening_open events) (List.Sublist.nodup ?_ hnodup)
  exact (prefix_arrivals (prefix_opening events)).sublist.map _

/-- Only what happens before the page closes the channel counts. -/
theorem handled_live {events : List (PageEvent μ)}
    (hnodup : ((arrivals events).map Prod.snd).Nodup) :
    (live handler events).handled = (live handler (opening events)).handled := by
  have hphase : Phase handler _ _ := phase_opening hnodup
  rcases hrest : events.dropWhile fun e => !e.isClose with _ | ⟨e, rest⟩
  · have hall : opening events = events := by
      have := List.takeWhile_append_dropWhile (p := fun e : PageEvent μ => !e.isClose) (l := events)
      rwa [hrest, List.append_nil] at this
    rw [hall]
  · have he : e = .close := by
      have hhead := List.head_dropWhile_not (fun e : PageEvent μ => !e.isClose) (l := events)
        (by simp [hrest])
      simp only [hrest, List.head_cons] at hhead
      cases e with
      | close => rfl
      | script raw => simp [PageEvent.isClose] at hhead
    have hsplit : live handler events = rest.foldl respond (live handler (opening events)).close := by
      conv_lhs => rw [← List.takeWhile_append_dropWhile (p := fun e : PageEvent μ => !e.isClose)
        (l := events), hrest, he]
      rw [live, List.foldl_append]
      rfl
    rw [hsplit, hphase.close.foldl, close_handled]

/-! ## The result -/

theorem complete_mono {seen events : List (PageEvent μ)} {k : Nat} (h : Complete seen k)
    (hp : seen <+: events) : Complete events k := fun i hi => by
  obtain ⟨m, hm⟩ := h i hi
  exact ⟨m, (prefix_arrivals hp).subset hm⟩

theorem Ends.complete {events : List (PageEvent μ)} {k : Nat}
    (h : Ends handler (ArrivedIn events) k c) : Complete events k := fun i hi =>
  ⟨_, h.passed i _ (List.getElem?_eq_getElem (Nat.lt_of_le_of_lt hi h.called))⟩

/-- The message after a closing call had arrived before if it had not yet been complete. -/
theorem exists_waiting {seen : List (PageEvent μ)} {m n : μ} {i k : Nat} (hi : i ≤ k)
    (hn : ArrivedIn (seen ++ [.script (.message m i)]) (k + 1) n) :
    ∃ before, before ++ [.script (.message n (k + 1))] <+: seen := by
  rw [arrivedIn_message] at hn
  rcases hn with hn | ⟨hk, -⟩
  · obtain ⟨e, he, hen⟩ := List.mem_filterMap.1 hn
    obtain ⟨before, rest, rfl⟩ := List.append_of_mem he
    have heq : e = .script (.message n (k + 1)) := by
      cases e with
      | close => cases hen
      | script raw =>
          cases raw with
          | ended _ => cases hen
          | message m' i' =>
              cases hen
              rfl
    exact ⟨before, rest, by simp [heq]⟩
  · omega

/-- A message that arrives before the first ones are complete arrives by the script that
completes them. -/
theorem arrivedIn_of_waits {seen before events : List (PageEvent μ)} {m n : μ} {i k : Nat}
    (hseen : seen ++ [.script (.message m i)] <+: events)
    (hbefore : before ++ [.script (.message n (k + 1))] <+: events)
    (hc : Complete (seen ++ [.script (.message m i)]) k) (hnc : ¬ Complete before k) :
    ArrivedIn (seen ++ [.script (.message m i)]) (k + 1) n := by
  have harrived : ArrivedIn (before ++ [.script (.message n (k + 1))]) (k + 1) n := by
    rw [arrivedIn_message]
    exact .inr ⟨rfl, rfl⟩
  rcases List.prefix_or_prefix_of_prefix hbefore hseen with h | h
  · exact (prefix_arrivals h).subset harrived
  · rcases List.prefix_concat_iff.1 h with h | h
    · rw [h]
      exact harrived
    · exact absurd (complete_mono hc h) hnc

section

variable {messages : List μ} {events : List (PageEvent μ)} {k : Nat}

theorem Phase.passed (h : Phase handler events c) {i : Nat} {m : μ}
    (hi : c.handled[i]? = some m) : ArrivedIn events i m := by
  cases h with
  | runs hr _ => exact hr.reorders.passed i m hi
  | halts hh => exact hh.passed i m hi
  | ends seen m' i' k' hseen _ _ he => exact (prefix_arrivals hseen).subset (he.passed i m hi)

theorem Phase.take_eq (h : Phase handler events c)
    (hA : ∀ i m, ArrivedIn events i m → messages[i]? = some m) (hk : k < c.handled.length) :
    c.handled.take (k + 1) = messages.take (k + 1) := by
  refine List.ext_getElem? fun i => ?_
  rcases Nat.lt_or_ge i (k + 1) with hlt | hge
  · rw [List.getElem?_take_of_lt hlt, List.getElem?_take_of_lt hlt]
    have hi : i < c.handled.length := by omega
    rw [List.getElem?_eq_getElem hi]
    exact (hA i _ (h.passed (List.getElem?_eq_getElem hi))).symm
  · rw [List.getElem?_eq_none, List.getElem?_eq_none] <;> simp only [List.length_take] <;> omega

/-- The first call that closes or throws closes, and it is made: the channel has ended there. -/
theorem Phase.ends_at (h : Phase handler events c)
    (hA : ∀ i m, ArrivedIn events i m → messages[i]? = some m)
    (hquiet : ∀ j < k, handler (messages.take (j + 1)) = {})
    (hcloses : (handler (messages.take (k + 1))).closes = true) (hk : Complete events k) :
    ∃ seen m i, seen ++ [.script (.message m i)] <+: events ∧ i ≤ k ∧
      Ends handler (ArrivedIn (seen ++ [.script (.message m i)])) k c := by
  have htake := fun {j} => h.take_eq (k := j) hA
  cases h with
  | runs hr hd =>
      have hlt : k < c.handled.length := by
        by_contra hge
        obtain ⟨m, hm⟩ := hk _ (not_lt.1 hge)
        exact hr.missing hd m hm
      have hq := hr.quiet k hlt
      rw [htake hlt] at hq
      rw [hq] at hcloses
      cases hcloses
  | halts hh =>
      have hlt : c.nextMessageIndex < c.handled.length := by
        have := hh.next
        omega
      have hlast : c.handled.take (c.nextMessageIndex + 1) = c.handled :=
        List.take_of_length_le hh.next.le
      rcases Nat.lt_trichotomy k c.nextMessageIndex with hlt' | rfl | hgt
      · have hq := hh.quiet k hlt'
        rw [htake (hlt'.trans hlt)] at hq
        rw [hq] at hcloses
        cases hcloses
      · have ho := hh.unclosed
        rw [← hlast, htake hlt, hcloses] at ho
        cases ho
      · have ht := hh.thrown
        rw [← hlast, htake hlt, hquiet _ hgt] at ht
        cases ht
  | ends seen m i k' hseen hi hnc he =>
      rcases Nat.lt_trichotomy k k' with hlt | rfl | hgt
      · have hq := he.quiet k hlt
        rw [htake (hlt.trans he.called)] at hq
        rw [hq] at hcloses
        cases hcloses
      · exact ⟨seen, m, i, hseen, hi, he⟩
      · have hc := he.closes
        rw [htake he.called, hquiet _ hgt] at hc
        cases hc

/-- A call that closes is the one at which the channel has ended, or was made afterwards. -/
theorem Phase.of_closes (h : Phase handler events c) (hk : k < c.handled.length)
    (hcloses : (handler (c.handled.take (k + 1))).closes = true) :
    ∃ seen m i j, seen ++ [.script (.message m i)] <+: events ∧ i ≤ j ∧ j ≤ k ∧
      ¬ Complete seen j ∧ Ends handler (ArrivedIn (seen ++ [.script (.message m i)])) j c := by
  cases h with
  | runs hr _ =>
      rw [hr.quiet k hk] at hcloses
      cases hcloses
  | halts hh =>
      have hnext := hh.next
      rcases Nat.lt_or_ge k c.nextMessageIndex with hlt | hge
      · rw [hh.quiet k hlt] at hcloses
        cases hcloses
      · rw [List.take_of_length_le (by omega), hh.unclosed] at hcloses
        cases hcloses
  | ends seen m i j hseen hi hnc he =>
      refine ⟨seen, m, i, j, hseen, hi, ?_, hnc, he⟩
      by_contra hlt
      rw [he.quiet k (not_le.1 hlt)] at hcloses
      cases hcloses

end

/-- **Closing is final, unless the handler closes the channel at a message whose successor
waits already**: that one, at least, is handled afterwards. The messages arrive in any order,
each at most once, with announcements of the end and calls of `close()` anywhere. -/
theorem close_is_final_iff (handler : List μ → Reaction) (messages : List μ)
    (events : List (PageEvent μ)) (h : (arrivals events).Subperm messages.zipIdx) :
    CloseIsFinal handler events ↔ ∀ k, ¬ SuccessorWaits handler messages events k := by
  have hnodup : ((arrivals events).map Prod.snd).Nodup := by
    obtain ⟨l, hl, hsub⟩ := h
    rw [← (hl.map _).nodup_iff]
    refine (hsub.map _).nodup ?_
    rw [List.zipIdx_map_snd]
    exact List.nodup_range'
  have hA : ∀ i m, ArrivedIn (opening events) i m → messages[i]? = some m := fun i m hm =>
    List.mk_mem_zipIdx_iff_getElem?.1 (h.subset ((prefix_arrivals (prefix_opening events)).subset hm))
  have hphase : Phase handler _ _ := phase_opening hnodup
  have htake := fun {j} => hphase.take_eq (k := j) hA
  constructor
  · rintro ⟨hfinal, -⟩ k hs
    -- the successor was in the buffer when the closing call returned to the loop
    obtain ⟨seen, m, i, hseen, -, he⟩ := hphase.ends_at hA hs.quiet hs.closes hs.complete
    obtain ⟨before, n, hbefore, hnc⟩ := hs.waits
    have hn := arrivedIn_of_waits hseen hbefore he.complete hnc
    rw [handled_live hnodup] at hfinal
    rcases he.last.1 (hfinal k he.called he.closes) with ht | hno
    · rw [htake he.called, hs.returns] at ht
      cases ht
    · exact hno n hn
  · intro hno
    refine ⟨fun k hk hcloses => ?_, fun seen hseen => ?_⟩
    · rw [handled_live hnodup] at hk hcloses ⊢
      obtain ⟨seen, m, i, j, hseen, hi, hjk, hnc, he⟩ := hphase.of_closes hk hcloses
      -- nothing was handled after the closing call, as its successor did not wait
      have hlast : (live handler (opening events)).handled.length = j + 1 := by
        rw [he.last]
        by_contra hnot
        simp only [not_or, not_forall, not_not, Bool.not_eq_true] at hnot
        obtain ⟨hreturns, n, hn⟩ := hnot
        obtain ⟨before, hbefore⟩ := exists_waiting hi hn
        have hin : seen <+: opening events := (List.prefix_append _ _).trans hseen
        refine hno j ⟨fun l hl => ?_, ?_, ?_, complete_mono he.complete hseen, before, n,
          hbefore.trans hin, fun hc => hnc ?_⟩
        · rw [← htake (hl.trans he.called)]
          exact he.quiet l hl
        · rw [← htake he.called]
          exact he.closes
        · rw [← htake he.called]
          exact hreturns
        · exact complete_mono hc ((List.prefix_append _ _).trans hbefore)
      omega
    · obtain ⟨rest, rfl⟩ := hseen
      have hopening : opening (seen ++ [.close] ++ rest) = opening seen := by
        rw [List.append_assoc]
        exact opening_append_close seen rest
      have hseen : ((arrivals seen).map Prod.snd).Nodup := by
        refine List.Sublist.nodup ?_ hnodup
        refine (prefix_arrivals ?_).sublist.map _
        rw [List.append_assoc]
        exact List.prefix_append _ _
      rw [handled_live hnodup, handled_live hseen, hopening]

/-- The handler closes at message 1, and message 2 comes later. -/
theorem close_is_final_iff_later :
    CloseIsFinal (fun handled => { closes := decide (handled.length = 2) })
      [.script (.message 'b' 1), .script (.message 'a' 0), .script (.message 'c' 2)] := by
  refine (close_is_final_iff _ ['a', 'b', 'c'] _ (List.Perm.subperm (by decide))).2 fun k hs => ?_
  rcases Nat.lt_trichotomy k 1 with hk | rfl | hk
  · obtain rfl : k = 0 := by omega
    exact absurd hs.closes (by decide)
  · obtain ⟨before, m, ⟨rest, hseen⟩, hnc⟩ := hs.waits
    have hc : Complete [.script (.message 'b' 1), .script (.message 'a' 0)] 1 := by
      intro i hi
      interval_cases i
      · exact ⟨'a', by decide⟩
      · exact ⟨'b', by decide⟩
    rcases before with _ | ⟨_, _ | ⟨_, _ | ⟨_, before⟩⟩⟩ <;>
      simp [opening, PageEvent.isClose] at hseen
    obtain ⟨rfl, rfl, -⟩ := hseen
    exact hnc hc
  · exact absurd (hs.quiet 1 hk) (by decide)

/-- The handler closes at message 0, for which message 1 is waiting. -/
theorem closed_channel_is_handled :
    ¬ CloseIsFinal (fun handled => { closes := decide (handled = ['a']) })
      [.script (.message 'b' 1), .script (.message 'a' 0)] := by
  rintro ⟨hfinal, -⟩
  exact absurd (hfinal 0 (by decide) (by decide)) (by decide)

end Channel

end Wxp.Page
