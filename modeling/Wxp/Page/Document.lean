import Mathlib.Logic.Function.Basic

/-!
# Page — Document

The callback registry of one document: `transformCallback` and `runCallback` of
`CORE_INIT_SCRIPT`, the registration of a `Channel`, and `window.invoke` of
`INVOKE_INIT_SCRIPT` (`src/initialization.rs`). Every document runs the scripts
afresh, so its ids start at 0.

What a channel does with a message is in `Page.Channel`; here it only is
registered, until the page closes it.
-/

namespace Wxp.Page

/-- What is registered under a callback id. -/
inductive Callback
  /-- One of the two callbacks of an `invoke`, which know both ids; `once`. -/
  | answer (callback error : Nat)
  | channel
  deriving DecidableEq, Repr

structure Document where
  callbackIdCounter : Nat := 0
  callbacks : Nat → Option Callback := fun _ => none
  /-- The ids with an entry in `__WXP_INTERNALS__.invoke`. -/
  invoke : Nat → Bool := fun _ => false

namespace Document

def transformCallback (d : Document) (callback : Callback) : Document :=
  { d with
    callbackIdCounter := d.callbackIdCounter + 1
    callbacks := Function.update d.callbacks d.callbackIdCounter (some callback) }

/-- `new Channel(onmessage)`; its id is the counter before. -/
def newChannel (d : Document) : Document := d.transformCallback .channel

/-- `Channel.close()`. -/
def closeChannel (d : Document) (id : Nat) : Document :=
  if d.callbacks id = some .channel then
    { d with callbacks := Function.update d.callbacks id none }
  else d

/-- `window.invoke` up to its message: the ids are the counter and the next. -/
def invokeCommand (d : Document) : Document :=
  let callback := d.callbackIdCounter
  let error := callback + 1
  let d := (d.transformCallback (.answer callback error)).transformCallback (.answer callback error)
  { d with invoke := Function.update (Function.update d.invoke callback true) error true }

/-- Is something called by `runCallback(id, data)`? -/
def answersTo (d : Document) (id : Nat) : Bool := (d.callbacks id).isSome

def runCallback (d : Document) (id : Nat) : Document :=
  match d.callbacks id with
  | none => d
  | some .channel => d
  | some (.answer callback error) =>
      { d with
        callbacks := Function.update d.callbacks id none
        invoke := Function.update (Function.update d.invoke callback false) error false }

/-- What a document may become without a reload, if no callback of an `invoke` is run:
a channel that receives a message stays registered. -/
inductive Later (d : Document) : Document → Prop
  | same : Later d d
  | newChannel {d' : Document} : Later d d' → Later d d'.newChannel
  | closeChannel {d' : Document} (id : Nat) : Later d d' → Later d (d'.closeChannel id)
  | invokeCommand {d' : Document} : Later d d' → Later d d'.invokeCommand

theorem Later.invoke {d d' : Document} (h : Later d d') {id : Nat} (hid : d.invoke id = true) :
    d'.invoke id = true := by
  induction h with
  | same => exact hid
  | newChannel _ ih => exact ih
  | closeChannel id' _ ih =>
      unfold Document.closeChannel
      split <;> exact ih
  | invokeCommand _ ih =>
      simp only [Document.invokeCommand, Function.update_apply]
      split
      · rfl
      · split
        · rfl
        · exact ih

end Document

end Wxp.Page
