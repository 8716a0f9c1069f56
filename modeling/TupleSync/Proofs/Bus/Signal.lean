import Mathlib.Data.List.Induction
import TupleSync.Bus.Signal
import TupleSync.Proofs.Bus.Moves

/-!
# Whom a signal tells, and whom it lets go

**A signal is what was done with its tokens.** It is raised once one of them was cancelled that was there,
and everybody who asks from then on is told so, also those who were not there at that moment. A wait ends
exactly if the signal is raised or nobody is left who could raise it, and both stay so.

A watcher that waits does not look at the signal again and again: it sleeps until the channel holds
another value than the one that it looked at. So the law of waiting needs one invariant, that nobody has
slept through the signal (`Alert`): who sleeps with the latest value before the eyes sleeps rightly.
-/

set_option autoImplicit false

namespace TupleSync.Bus

theorem getElem?_concat_eq_some_iff {α : Type} {xs : List α} {x y : α} {i : Nat} :
    (xs ++ [x])[i]? = some y ↔ xs[i]? = some y ∨ (i = xs.length ∧ x = y) := by
  grind

namespace Watch

variable {c : Watch} {t u : Nat}

theorem isClosed_iff : c.IsClosed ↔ ∀ t, ¬c.HasSender t := by
  simp only [IsClosed, HasSender, List.mem_iff_getElem?]
  constructor
  · intro h t ht
    exact absurd (h true ⟨t, ht⟩) (by decide)
  · intro h alive halive
    obtain ⟨t, ht⟩ := halive
    cases alive with
    | false => rfl
    | true => exact absurd ht (h t)

theorem hasSender_concat {alive : Bool} :
    HasSender { c with senders := c.senders ++ [alive] } t ↔
      c.HasSender t ∨ (t = c.senders.length ∧ alive = true) :=
  getElem?_concat_eq_some_iff

theorem hasSender_set :
    HasSender { c with senders := c.senders.set u false } t ↔ c.HasSender t ∧ t ≠ u := by
  by_cases h : t = u
  · subst h
    simp [HasSender, List.getElem?_set_self']
  · simp [HasSender, List.getElem?_set_ne (Ne.symm h), h]

end Watch

/-- Who sleeps and has seen the latest value has not seen the signal. -/
structure Watcher.IsAlert (me : Watcher) (c : Watch) : Prop where
  seen_le : me.seen ≤ c.version
  value : me.waiting = true → me.seen = c.version → c.value = false

theorem Watcher.IsAlert.of_awake {c : Watch} {seen : Nat} (h : seen ≤ c.version) :
    (Watcher.mk seen false).IsAlert c where
  seen_le := h
  value := nofun

namespace Signal

/-- The watcher is still there. -/
def HasReceiver (s : Signal) (w : Nat) : Prop := ∃ me, s.watchers[w]? = some (some me)

/-! ## One action -/

/-- The action begins to wait, or goes on with a wait. -/
def Action.IsWait (a : Action) (w : Nat) : Prop := a = .wait w ∨ a = .resume w

theorem Action.IsWait.handle {a : Action} {w : Nat} (h : a.IsWait w) : a.handle = .inr w := by
  rcases h with rfl | rfl
  · rfl
  · rfl

theorem Action.IsWait.unique {a : Action} {v w : Nat} (hv : a.IsWait v) (hw : a.IsWait w) : v = w :=
  Sum.inr.inj (hv.handle.symm.trans hw.handle)

/-- An action on a signal, with the answer and the signal after it. -/
inductive Step (s : Signal) : Action → Answer → Signal → Prop where
  | cancelled (t : Nat) (ht : s.channel.HasSender t) :
    Step s (.cancel t) .done { s with channel := s.channel.send true }
  | copied (t : Nat) (answer : Answer) (alive : Bool) (ht : alive = true ↔ s.channel.HasSender t) :
    Step s (.cloneToken t) answer
      { s with channel := { s.channel with senders := s.channel.senders ++ [alive] } }
  | dropped (t : Nat) (ht : s.channel.HasSender t) :
    Step s (.dropToken t) .done
      { s with channel := { s.channel with senders := s.channel.senders.set t false } }
  | watched (t : Nat) (ht : s.channel.HasSender t) :
    Step s (.watch t) .done { s with watchers := s.watchers ++ [some ⟨s.channel.version, false⟩] }
  | asked (t : Nat) (ht : s.channel.HasSender t) :
    Step s (.isCancelled t) (.flag s.channel.value) s
  | tokenGone (a : Action) (t : Nat) (ht : ¬s.channel.HasSender t) (h : a.handle = .inl t)
      (hcopy : ∀ u, a ≠ .cloneToken u) :
    Step s a .dropped s
  | receiverCopied (w : Nat) (me : Watcher) (hget : s.watchers[w]? = some (some me)) :
    Step s (.cloneWatcher w) .done { s with watchers := s.watchers ++ [some ⟨me.seen, false⟩] }
  | receiverDropped (w : Nat) (hw : s.HasReceiver w) :
    Step s (.dropWatcher w) .done { s with watchers := s.watchers.set w none }
  | saw (w : Nat) (hw : s.HasReceiver w) : Step s (.sawCancelled w) (.flag s.channel.value) s
  | letGo (a : Action) (w : Nat) (me : Watcher) (seen : Nat) (hget : s.watchers[w]? = some (some me))
      (h : a.IsWait w) (hseen : seen = s.channel.version ∨ seen = me.seen)
      (hreleased : s.IsReleased) :
    Step s a .released { s with watchers := s.watchers.set w (some ⟨seen, false⟩) }
  | fellAsleep (a : Action) (w : Nat) (hw : s.HasReceiver w) (h : a.IsWait w)
      (hreleased : ¬s.IsReleased) :
    Step s a .pending { s with watchers := s.watchers.set w (some ⟨s.channel.version, true⟩) }
  | sleptOn (w : Nat) (me : Watcher) (hget : s.watchers[w]? = some (some me))
      (hwaiting : me.waiting = true) (hseen : me.seen = s.channel.version)
      (hopen : ¬s.channel.IsClosed) :
    Step s (.resume w) .pending s
  | receiverGone (a : Action) (w : Nat) (hw : ¬s.HasReceiver w) (h : a.handle = .inr w) :
    Step s a .dropped s

variable {s s' : Signal} {a : Action} {answer : Answer} {me : Watcher} {past : List Action}
variable {t w : Nat}

theorem step_look (hget : s.watchers[w]? = some (some me)) (h : a.IsWait w) :
    Step s a (s.look w).1 (s.look w).2 := by
  unfold look
  split
  · next hreleased => exact .letGo a w me _ hget h (Or.inl rfl) hreleased
  · next hreleased => exact .fellAsleep a w ⟨me, hget⟩ h hreleased

theorem step_wake (hget : s.watchers[w]? = some (some me)) (hwaiting : me.waiting = true) :
    Step s (.resume w) (s.wake w me.seen).1 (s.wake w me.seen).2 := by
  unfold wake
  split
  · exact step_look hget (Or.inr rfl)
  · next hseen =>
    split
    · next hclosed => exact .letGo _ w me me.seen hget (Or.inr rfl) (Or.inr rfl) (Or.inr hclosed)
    · next hopen => exact .sleptOn w me hget hwaiting (not_not.1 hseen).symm hopen

theorem step_onToken (h : a.handle = .inl t) (ht : s.channel.HasSender t) :
    Step s a (s.onToken a).1 (s.onToken a).2 := by
  cases a with
  | cancel t => cases h; exact .cancelled t ht
  | cloneToken t => cases h; exact .copied t _ true (iff_of_true rfl ht)
  | dropToken t => cases h; exact .dropped t ht
  | watch t => cases h; exact .watched t ht
  | isCancelled t => cases h; exact .asked t ht
  | _ => cases h

theorem step_onDroppedToken (h : a.handle = .inl t) (ht : ¬s.channel.HasSender t) :
    Step s a (s.onDroppedToken a).1 (s.onDroppedToken a).2 := by
  cases a with
  | cloneToken t => cases h; exact .copied t _ false (iff_of_false nofun ht)
  | _ => exact .tokenGone _ t ht h nofun

theorem step_onWatcher (h : a.handle = .inr w) (hget : s.watchers[w]? = some (some me)) :
    Step s a (s.onWatcher me a).1 (s.onWatcher me a).2 := by
  cases a with
  | cloneWatcher w => cases h; exact .receiverCopied w me hget
  | dropWatcher w => cases h; exact .receiverDropped w ⟨me, hget⟩
  | sawCancelled w => cases h; exact .saw w ⟨me, hget⟩
  | wait w => cases h; exact step_look hget (Or.inl rfl)
  | resume w =>
    cases h
    rw [onWatcher]
    split
    · next hwaiting => exact step_wake hget hwaiting
    · exact step_look hget (Or.inr rfl)
  | _ => cases h

theorem step_act (s : Signal) (a : Action) : Step s a (s.act a).1 (s.act a).2 := by
  unfold act
  split
  · next t h =>
    by_cases ht : s.channel.HasSender t
    · rw [if_pos ht]
      exact step_onToken h ht
    · rw [if_neg ht]
      exact step_onDroppedToken h ht
  · next w h =>
    split
    · next me hget => exact step_onWatcher h hget
    · next hnone => exact .receiverGone a w (fun ⟨me, hget⟩ => hnone me hget) h

/-! ## What an action changes -/

/-- The value is the signal from a cancel on that a token made. -/
theorem Step.value_iff (h : Step s a answer s') : s'.channel.value = true ↔
    s.channel.value = true ∨ ∃ t, a = .cancel t ∧ s.channel.HasSender t := by
  cases h with
  | cancelled t ht => simp [Watch.send, ht]
  | tokenGone a t ht h => cases a <;> simp_all [Action.handle]
  | receiverGone a w hw h => cases a <;> simp_all [Action.handle]
  | letGo a w me seen hget h => rcases h with rfl | rfl <;> simp
  | fellAsleep a w hw h => rcases h with rfl | rfl <;> simp
  | _ => simp

/-- A token goes when it is dropped, and a copy of one that is there comes. -/
theorem Step.hasSender_iff (h : Step s a answer s') : s'.channel.HasSender t ↔
    (s.channel.HasSender t ∧ a ≠ .dropToken t) ∨
      ∃ u, a = .cloneToken u ∧ s.channel.HasSender u ∧ t = s.channel.senders.length := by
  cases h with
  | cancelled u hu => simp [Watch.HasSender, Watch.send]
  | copied u answer alive hu => simp [Watch.hasSender_concat, hu, and_comm]
  | dropped u hu => simp [Watch.hasSender_set, @eq_comm _ t]
  | tokenGone a u hu h => cases a <;> grind [Action.handle]
  | receiverGone a w hw h => cases a <;> simp_all [Action.handle]
  | letGo a w me seen hget h => rcases h with rfl | rfl <;> simp
  | fellAsleep a w hw h => rcases h with rfl | rfl <;> simp
  | _ => simp

theorem hasReceiver_set {v : Nat} (hv : s.HasReceiver v) (me : Watcher) :
    HasReceiver { s with watchers := s.watchers.set v (some me) } w ↔ s.HasReceiver w := by
  obtain ⟨old, hold⟩ := hv
  by_cases h : v = w
  · subst h
    have hlt := (List.getElem?_eq_some_iff.1 hold).1
    exact iff_of_true ⟨me, List.getElem?_set_self hlt⟩ ⟨old, hold⟩
  · simp only [HasReceiver, List.getElem?_set_ne h]

theorem hasReceiver_set_none {v : Nat} :
    HasReceiver { s with watchers := s.watchers.set v none } w ↔ s.HasReceiver w ∧ w ≠ v := by
  by_cases h : w = v
  · subst h
    simp [HasReceiver, List.getElem?_set_self']
  · simp [HasReceiver, List.getElem?_set_ne (Ne.symm h), h]

theorem hasReceiver_concat (me : Watcher) :
    HasReceiver { s with watchers := s.watchers ++ [some me] } w ↔
      s.HasReceiver w ∨ w = s.watchers.length := by
  simp [HasReceiver, getElem?_concat_eq_some_iff, exists_or]

/-- A watcher goes when it is dropped; one that a token gives and a copy of one that is there come. -/
theorem Step.hasReceiver_iff (h : Step s a answer s') : s'.HasReceiver w ↔
    (s.HasReceiver w ∧ a ≠ .dropWatcher w) ∨
      ((∃ t, a = .watch t ∧ s.channel.HasSender t) ∨ ∃ v, a = .cloneWatcher v ∧ s.HasReceiver v) ∧
        w = s.watchers.length := by
  cases h with
  | watched t ht => simp [hasReceiver_concat, ht]
  | receiverCopied v me hget =>
    have hv : s.HasReceiver v := ⟨me, hget⟩
    simp [hasReceiver_concat, hv]
  | receiverDropped v hv => simp [hasReceiver_set_none, @eq_comm _ w]
  | tokenGone a t ht h => cases a <;> simp_all [Action.handle]
  | receiverGone a v hv h => cases a <;> grind [Action.handle]
  | letGo a v me seen hget h =>
    rw [hasReceiver_set ⟨me, hget⟩]
    rcases h with rfl | rfl <;> simp
  | fellAsleep a v hv h =>
    rw [hasReceiver_set hv]
    rcases h with rfl | rfl <;> simp
  | _ => simp [HasReceiver]

/-! ## Watchers that sleep -/

/-- Nobody has slept through the signal. -/
def Alert (s : Signal) : Prop := ∀ me, some me ∈ s.watchers → me.IsAlert s.channel

theorem Alert.set (h : s.Alert) (hme : me.IsAlert s.channel) (w : Nat) :
    Alert { s with watchers := s.watchers.set w (some me) } := by
  intro other hother
  rcases List.mem_or_eq_of_mem_set hother with hother | heq
  · exact h other hother
  · cases heq
    exact hme

theorem Alert.concat (h : s.Alert) (hme : me.IsAlert s.channel) :
    Alert { s with watchers := s.watchers ++ [some me] } := by
  intro other hother
  rcases List.mem_append.1 hother with hother | heq
  · exact h other hother
  · cases List.mem_singleton.1 heq
    exact hme

theorem Alert.get (h : s.Alert) (hget : s.watchers[w]? = some (some me)) : me.IsAlert s.channel :=
  h me (List.mem_of_getElem? hget)

theorem Step.alert (hstep : Step s a answer s') (h : s.Alert) : s'.Alert := by
  cases hstep with
  | cancelled t ht =>
    -- whoever sleeps has seen a value before this one
    intro me hme
    have hlt := Nat.lt_succ_of_le (h me hme).seen_le
    exact ⟨Nat.le_of_lt hlt, fun _ heq => absurd heq (Nat.ne_of_lt hlt)⟩
  | copied t answer alive ht => exact fun me hme => ⟨(h me hme).seen_le, (h me hme).value⟩
  | dropped t ht => exact fun me hme => ⟨(h me hme).seen_le, (h me hme).value⟩
  | watched t ht => exact h.concat (.of_awake (Nat.le_refl _))
  | receiverCopied w me hget => exact h.concat (.of_awake (h.get hget).seen_le)
  | receiverDropped w hw =>
    intro me hme
    rcases List.mem_or_eq_of_mem_set hme with hme | heq
    · exact h me hme
    · cases heq
  | letGo a w me seen hget ha hseen hreleased =>
    rcases hseen with rfl | rfl
    · exact h.set (.of_awake (Nat.le_refl _)) w
    · exact h.set (.of_awake (h.get hget).seen_le) w
  | fellAsleep a w hw ha hreleased =>
    -- it looked at the latest value, and that was not the signal
    have hvalue := Bool.eq_false_iff.2 (not_or.1 hreleased).1
    exact h.set ⟨Nat.le_refl _, fun _ _ => hvalue⟩ w
  | _ => exact h

/-! ## Answers -/

/-- Who is there is answered by whether it is so; who is gone gets neither answer. -/
def Decides (answer yes no : Answer) (there so : Prop) : Prop :=
  (answer = yes ↔ there ∧ so) ∧ (answer = no ↔ there ∧ ¬so)

theorem Step.decides_isCancelled (h : Step s (.isCancelled t) answer s') :
    Decides answer (.flag true) (.flag false) (s.channel.HasSender t) (s.channel.value = true) := by
  cases h with
  | asked t ht => simp [Decides, ht]
  | tokenGone a u hu h =>
    cases h
    simp [Decides, hu]
  | receiverGone a w hw h => cases h
  | letGo a w me seen hget h => simp [Action.IsWait] at h
  | fellAsleep a w hw h => simp [Action.IsWait] at h

theorem Step.decides_sawCancelled (h : Step s (.sawCancelled w) answer s') :
    Decides answer (.flag true) (.flag false) (s.HasReceiver w) (s.channel.value = true) := by
  cases h with
  | saw w hw => simp [Decides, hw]
  | receiverGone a v hv h =>
    cases h
    simp [Decides, hv]
  | tokenGone a t ht h => cases h
  | letGo a v me seen hget h => simp [Action.IsWait] at h
  | fellAsleep a v hv h => simp [Action.IsWait] at h

/-- Who waits is let go or sleeps, whether it begins to wait or goes on. -/
theorem Step.decides_wait (h : Step s a answer s') (halert : s.Alert) (ha : a.IsWait w) :
    Decides answer .released .pending (s.HasReceiver w) s.IsReleased := by
  cases h with
  | letGo a v me seen hget h hseen hreleased =>
    obtain rfl := h.unique ha
    have hv : s.HasReceiver v := ⟨me, hget⟩
    simp [Decides, hv, hreleased]
  | fellAsleep a v hv h hreleased =>
    obtain rfl := h.unique ha
    simp [Decides, hv, hreleased]
  | sleptOn v me hget hwaiting hseen hopen =>
    obtain rfl := Action.IsWait.unique (Or.inr rfl) ha
    have hv : s.HasReceiver v := ⟨me, hget⟩
    have hvalue := (halert.get hget).value hwaiting hseen
    simp [Decides, hv, IsReleased, hvalue, hopen]
  | receiverGone a v hv h =>
    obtain rfl : v = w := Sum.inr.inj (h.symm.trans ha.handle)
    simp [Decides, hv]
  | tokenGone a t ht h => cases h.symm.trans ha.handle
  | _ => simp [Action.IsWait] at ha

/-! ## Histories -/

/-- The signal after actions. -/
def after (s : Signal) (acts : List Action) : Signal := (s.run acts).2

theorem after_concat (s : Signal) (past : List Action) (a : Action) :
    s.after (past ++ [a]) = ((s.after past).act a).2 := by
  induction past generalizing s with
  | nil => rfl
  | cons first past ih => exact ih (s.act first).2

/-- The token is there after the actions: it is the first one or a copy of one that was there, and was not
dropped since. Tokens are numbered as they are made. -/
inductive HasToken : List Action → Nat → Prop where
  | first : HasToken [] 0
  | kept {past : List Action} {a : Action} {t : Nat} :
    HasToken past t → a ≠ .dropToken t → HasToken (past ++ [a]) t
  | copied {past : List Action} {t : Nat} :
    HasToken past t → HasToken (past ++ [.cloneToken t]) (new.after past).channel.senders.length

/-- The watcher is there after the actions: it is the first one, was taken from a token that was there, or
is a copy of one that was there, and was not dropped since. -/
inductive HasWatcher : List Action → Nat → Prop where
  | first : HasWatcher [] 0
  | kept {past : List Action} {a : Action} {w : Nat} :
    HasWatcher past w → a ≠ .dropWatcher w → HasWatcher (past ++ [a]) w
  | taken {past : List Action} {t : Nat} :
    HasToken past t → HasWatcher (past ++ [.watch t]) (new.after past).watchers.length
  | copied {past : List Action} {w : Nat} :
    HasWatcher past w → HasWatcher (past ++ [.cloneWatcher w]) (new.after past).watchers.length

/-- Some token that was there was cancelled. -/
def Raised (past : List Action) : Prop :=
  ∃ before t rest, past = before ++ .cancel t :: rest ∧ HasToken before t

/-- There is nothing to wait for any more. -/
def Released (past : List Action) : Prop := Raised past ∨ ∀ t, ¬HasToken past t

theorem hasToken_concat_iff : HasToken (past ++ [a]) t ↔
    (HasToken past t ∧ a ≠ .dropToken t) ∨
      ∃ u, a = .cloneToken u ∧ HasToken past u ∧ t = (new.after past).channel.senders.length := by
  constructor
  · intro h
    generalize hacts : past ++ [a] = acts at h
    cases h with
    | first => simp at hacts
    | kept h hne =>
      obtain ⟨rfl, hlast⟩ := List.append_inj' hacts rfl
      cases hlast
      exact Or.inl ⟨h, hne⟩
    | copied h =>
      obtain ⟨rfl, hlast⟩ := List.append_inj' hacts rfl
      cases hlast
      exact Or.inr ⟨_, rfl, h, rfl⟩
  · intro h
    rcases h with ⟨h, hne⟩ | ⟨u, rfl, h, rfl⟩
    · exact .kept h hne
    · exact .copied h

theorem hasWatcher_concat_iff : HasWatcher (past ++ [a]) w ↔
    (HasWatcher past w ∧ a ≠ .dropWatcher w) ∨
      ((∃ t, a = .watch t ∧ HasToken past t) ∨ ∃ v, a = .cloneWatcher v ∧ HasWatcher past v) ∧
        w = (new.after past).watchers.length := by
  constructor
  · intro h
    generalize hacts : past ++ [a] = acts at h
    cases h with
    | first => simp at hacts
    | kept h hne =>
      obtain ⟨rfl, hlast⟩ := List.append_inj' hacts rfl
      cases hlast
      exact Or.inl ⟨h, hne⟩
    | taken h =>
      obtain ⟨rfl, hlast⟩ := List.append_inj' hacts rfl
      cases hlast
      exact Or.inr ⟨Or.inl ⟨_, rfl, h⟩, rfl⟩
    | copied h =>
      obtain ⟨rfl, hlast⟩ := List.append_inj' hacts rfl
      cases hlast
      exact Or.inr ⟨Or.inr ⟨_, rfl, h⟩, rfl⟩
  · intro h
    rcases h with ⟨h, hne⟩ | ⟨⟨t, rfl, h⟩ | ⟨v, rfl, h⟩, rfl⟩
    · exact .kept h hne
    · exact .taken h
    · exact .copied h

theorem raised_concat_iff :
    Raised (past ++ [a]) ↔ Raised past ∨ ∃ t, a = .cancel t ∧ HasToken past t := by
  constructor
  · intro h
    obtain ⟨before, t, rest, hsplit, ht⟩ := h
    rcases concat_eq_split_iff.1 hsplit with ⟨rfl, rfl, -⟩ | ⟨rest, -, rfl⟩
    · exact Or.inr ⟨t, rfl, ht⟩
    · exact Or.inl ⟨before, t, rest, rfl, ht⟩
  · intro h
    rcases h with ⟨before, t, rest, rfl, ht⟩ | ⟨t, rfl, ht⟩
    · exact ⟨before, t, rest ++ [a], by simp, ht⟩
    · exact ⟨past, t, [], rfl, ht⟩

theorem Raised.append (h : Raised past) (later : List Action) : Raised (past ++ later) := by
  obtain ⟨before, t, rest, rfl, ht⟩ := h
  exact ⟨before, t, rest ++ later, by simp, ht⟩

/-- Without a token nobody can make one. -/
theorem not_hasToken_append (h : ∀ t, ¬HasToken past t) (later : List Action) (t : Nat) :
    ¬HasToken (past ++ later) t := by
  induction later using List.reverseRecOn generalizing t with
  | nil => rw [List.append_nil]; exact h t
  | append_singleton later a ih =>
    rw [← List.append_assoc, hasToken_concat_iff]
    intro hor
    rcases hor with ⟨ht, -⟩ | ⟨u, -, hu, -⟩
    · exact ih t ht
    · exact ih u hu

theorem Released.append (h : Released past) (later : List Action) : Released (past ++ later) :=
  h.imp (fun hraised => hraised.append later) fun hnone => not_hasToken_append hnone later

/-- What the actions on a new signal say of it. -/
structure Recorded (past : List Action) (s : Signal) : Prop where
  tokens : ∀ t, s.channel.HasSender t ↔ HasToken past t
  watchers : ∀ w, s.HasReceiver w ↔ HasWatcher past w
  value : s.channel.value = true ↔ Raised past
  alert : s.Alert

theorem recorded_new : Recorded [] new where
  tokens := by
    intro t
    constructor
    · intro h
      cases t with
      | zero => exact .first
      | succ t => simp [new, Watch.HasSender] at h
    · intro h
      generalize hacts : [] = acts at h
      cases h with
      | first => rfl
      | kept => simp at hacts
      | copied => simp at hacts
  watchers := by
    intro w
    constructor
    · intro h
      cases w with
      | zero => exact .first
      | succ w => simp [new, HasReceiver] at h
    · intro h
      generalize hacts : [] = acts at h
      cases h with
      | first => exact ⟨_, rfl⟩
      | kept => simp at hacts
      | taken => simp at hacts
      | copied => simp at hacts
  value := by
    simp [new, Raised]
  alert := by
    intro me hme
    cases List.mem_singleton.1 hme
    exact .of_awake (Nat.le_refl _)

theorem Recorded.act (h : Recorded past (new.after past)) (a : Action) :
    Recorded (past ++ [a]) (new.after (past ++ [a])) := by
  have hstep := step_act (new.after past) a
  rw [after_concat]
  refine ⟨?_, ?_, ?_, hstep.alert h.alert⟩
  · intro t
    rw [hstep.hasSender_iff, hasToken_concat_iff]
    simp only [h.tokens]
  · intro w
    rw [hstep.hasReceiver_iff, hasWatcher_concat_iff]
    simp only [h.tokens, h.watchers]
  · rw [hstep.value_iff, raised_concat_iff, h.value]
    simp only [h.tokens]

theorem recorded (past : List Action) : Recorded past (new.after past) := by
  induction past using List.reverseRecOn with
  | nil => exact recorded_new
  | append_singleton past a ih => exact ih.act a

theorem Recorded.isReleased_iff (h : Recorded past s) : s.IsReleased ↔ Released past := by
  rw [IsReleased, Released, h.value, Watch.isClosed_iff]
  simp only [h.tokens]

/-! ## Whole histories -/

theorem Recorded.decides_isCancelled (h : Recorded past s) (t : Nat) :
    Decides (s.act (.isCancelled t)).1 (.flag true) (.flag false) (HasToken past t) (Raised past) := by
  rw [← h.tokens, ← h.value]
  exact (step_act s _).decides_isCancelled

theorem Recorded.decides_sawCancelled (h : Recorded past s) (w : Nat) :
    Decides (s.act (.sawCancelled w)).1 (.flag true) (.flag false) (HasWatcher past w) (Raised past) := by
  rw [← h.watchers, ← h.value]
  exact (step_act s _).decides_sawCancelled

theorem Recorded.decides_wait (h : Recorded past s) (ha : a.IsWait w) :
    Decides (s.act a).1 .released .pending (HasWatcher past w) (Released past) := by
  rw [← h.watchers, ← h.isReleased_iff]
  exact (step_act s a).decides_wait h.alert ha

/-- **Who asks is told what was done with the tokens, and who waits is let go when there is nothing to
wait for.** After any actions on a new signal, a token or watcher that is there is told that the signal is
raised exactly if some token was cancelled while it was there; a watcher that is there and begins to wait,
or goes on with a wait, is let go exactly if the signal is raised or no token is left, and sleeps
otherwise, however often it has waited before. What is raised or released once stays so. -/
theorem tells_and_releases (past : List Action) :
    let s := new.after past
    (∀ t, Decides (s.act (.isCancelled t)).1 (.flag true) (.flag false) (HasToken past t) (Raised past)) ∧
      (∀ w, Decides (s.act (.sawCancelled w)).1 (.flag true) (.flag false) (HasWatcher past w)
        (Raised past)) ∧
      (∀ w, Decides (s.act (.wait w)).1 .released .pending (HasWatcher past w) (Released past) ∧
        Decides (s.act (.resume w)).1 .released .pending (HasWatcher past w) (Released past)) ∧
      ∀ later, (Raised past → Raised (past ++ later)) ∧ (Released past → Released (past ++ later)) := by
  intro s
  have h := recorded past
  refine ⟨h.decides_isCancelled, h.decides_sawCancelled, fun w => ⟨?_, ?_⟩, fun later => ⟨?_, ?_⟩⟩
  · exact h.decides_wait (Or.inl rfl)
  · exact h.decides_wait (Or.inr rfl)
  · exact fun hraised => hraised.append later
  · exact fun hreleased => hreleased.append later

/-- The first token is dropped, and its copy cancels when nobody watches. -/
def lateWatcher : List Action :=
  [.cloneToken 0, .dropToken 0, .dropWatcher 0, .cancel 1, .watch 1, .wait 1]

/-- A watcher sleeps when the last token goes. -/
def lastTokenGone : List Action := [.wait 0, .dropToken 0]

theorem tells_and_releases_lateWatcher :
    HasWatcher lateWatcher 1 ∧ Raised lateWatcher ∧ Raised (lateWatcher ++ [.dropToken 1]) ∧
      HasWatcher lastTokenGone 0 ∧ Released lastTokenGone ∧ ¬Raised lastTokenGone := by
  obtain ⟨-, hsaw, -, hlater⟩ := tells_and_releases lateWatcher
  obtain ⟨-, hunsaid, hwait, -⟩ := tells_and_releases lastTokenGone
  obtain ⟨hwatcher, hraised⟩ := (hsaw 1).1.1 rfl
  obtain ⟨hsleeper, hreleased⟩ := (hwait 0).2.1.1 rfl
  exact ⟨hwatcher, hraised, (hlater _).1 hraised, hsleeper, hreleased, ((hunsaid 0).2.1 rfl).2⟩

end Signal
end TupleSync.Bus
