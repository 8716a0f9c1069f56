/-!
# The shutdown signal

**A signal is raised once and stays raised; whoever waits for it is let go when it is raised, or when
nobody is left who could raise it.** Tokens raise it, watchers wait for it, and both can be copied and
dropped. A watcher that was let go because the last token is gone has still not been told that the signal
was raised: the two questions have two answers.

Underneath lies a channel that holds one value and counts how often it was sent. A watcher that waits
looks at the value and, if that is not the signal, sleeps until the count is another than the one it
looked at, or the channel is closed; then it looks again.
-/

set_option autoImplicit false

namespace TupleSync.Bus

/-- A channel that holds the last value sent. -/
structure Watch where
  value : Bool
  /-- How often a value was sent. -/
  version : Nat
  /-- Which of the senders, in order of creation, are still there. -/
  senders : List Bool
  deriving Repr, DecidableEq

namespace Watch

/-- Nobody is left who could send. -/
def IsClosed (w : Watch) : Prop := ∀ alive ∈ w.senders, alive = false

instance (w : Watch) : Decidable w.IsClosed :=
  inferInstanceAs (Decidable (∀ alive ∈ w.senders, alive = false))

/-- The sender is still there. -/
def HasSender (w : Watch) (s : Nat) : Prop := w.senders[s]? = some true

instance (w : Watch) (s : Nat) : Decidable (w.HasSender s) :=
  inferInstanceAs (Decidable (_ = _))

def send (b : Bool) (w : Watch) : Watch := { w with value := b, version := w.version + 1 }

end Watch

/-- One who looks at the channel. -/
structure Watcher where
  /-- The count of the value that it looked at last. -/
  seen : Nat
  /-- It sleeps in a wait. -/
  waiting : Bool
  deriving Repr, DecidableEq

/-- A signal with its tokens and watchers, numbered in the order of their creation. -/
structure Signal where
  channel : Watch
  /-- The watchers; nothing for one that is gone. -/
  watchers : List (Option Watcher)
  deriving Repr, DecidableEq

namespace Signal

/-- A new signal has one token and one watcher. -/
def new : Signal := ⟨⟨false, 0, [true]⟩, [some ⟨0, false⟩]⟩

/-- Something done with a token or a watcher. -/
inductive Action where
  | cancel (token : Nat)
  | cloneToken (token : Nat)
  | dropToken (token : Nat)
  /-- Takes a new watcher from a token. -/
  | watch (token : Nat)
  | cloneWatcher (watcher : Nat)
  | dropWatcher (watcher : Nat)
  | isCancelled (token : Nat)
  | sawCancelled (watcher : Nat)
  /-- Starts to wait for the signal; a wait that the watcher was in is given up. -/
  | wait (watcher : Nat)
  /-- Goes on with a wait, or starts one. -/
  | resume (watcher : Nat)
  deriving Repr, DecidableEq

inductive Answer where
  | done
  | flag (b : Bool)
  | released
  | pending
  /-- The token or watcher is gone. -/
  | dropped
  deriving Repr, DecidableEq

/-- A waiting watcher looks at the channel. -/
def look (s : Signal) (w : Nat) : Answer × Signal :=
  let now (waiting : Bool) : Signal :=
    { s with watchers := s.watchers.set w (some ⟨s.channel.version, waiting⟩) }
  if s.channel.value ∨ s.channel.IsClosed then (.released, now false) else (.pending, now true)

/-- A sleeping watcher that has seen so much wakes up, if there is a reason to. -/
def wake (s : Signal) (w seen : Nat) : Answer × Signal :=
  if s.channel.version ≠ seen then s.look w
  else if s.channel.IsClosed then
    (.released, { s with watchers := s.watchers.set w (some ⟨seen, false⟩) })
  else (.pending, s)

/-- What an action on a token does while the token is there. -/
def onToken (s : Signal) : Action → Answer × Signal
  | .cancel _ => (.done, { s with channel := s.channel.send true })
  | .cloneToken _ =>
    (.done, { s with channel := { s.channel with senders := s.channel.senders ++ [true] } })
  | .dropToken t =>
    (.done, { s with channel := { s.channel with senders := s.channel.senders.set t false } })
  | .watch _ => (.done, { s with watchers := s.watchers ++ [some ⟨s.channel.version, false⟩] })
  | .isCancelled _ => (.flag s.channel.value, s)
  | _ => (.dropped, s)

/-- What an action does with a token that is gone. Its copy is gone as well. -/
def onDroppedToken (s : Signal) : Action → Answer × Signal
  | .cloneToken _ =>
    (.dropped, { s with channel := { s.channel with senders := s.channel.senders ++ [false] } })
  | _ => (.dropped, s)

/-- What an action on a watcher does. -/
def onWatcher (s : Signal) (me : Watcher) : Action → Answer × Signal
  | .cloneWatcher _ => (.done, { s with watchers := s.watchers ++ [some ⟨me.seen, false⟩] })
  | .dropWatcher w => (.done, { s with watchers := s.watchers.set w none })
  | .sawCancelled _ => (.flag s.channel.value, s)
  | .wait w => s.look w
  | .resume w => if me.waiting then s.wake w me.seen else s.look w
  | _ => (.dropped, s)

/-- The token or the watcher that an action is about. -/
def Action.handle : Action → Nat ⊕ Nat
  | .cancel t | .cloneToken t | .dropToken t | .watch t | .isCancelled t => .inl t
  | .cloneWatcher w | .dropWatcher w | .sawCancelled w | .wait w | .resume w => .inr w

/-- Does one action. -/
def act (s : Signal) (a : Action) : Answer × Signal :=
  match a.handle with
  | .inl t => if s.channel.HasSender t then s.onToken a else s.onDroppedToken a
  | .inr w =>
    match s.watchers[w]? with
    | some (some me) => s.onWatcher me a
    | _ => (.dropped, s)

/-- Does actions in order. -/
def run (s : Signal) : List Action → List Answer × Signal
  | [] => ([], s)
  | a :: rest =>
    let (answer, s) := s.act a
    let (answers, s) := run s rest
    (answer :: answers, s)

/-- Whoever waits is let go. -/
def IsReleased (s : Signal) : Prop := s.channel.value = true ∨ s.channel.IsClosed

instance (s : Signal) : Decidable s.IsReleased := inferInstanceAs (Decidable (_ ∨ _))

end Signal

end TupleSync.Bus
