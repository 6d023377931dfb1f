import Mathlib
import Praxis.Foundation.Indexed
import Praxis.Foundation.Steps

/-!
# The mailbox of an agent

Other agents send mail to an agent (`core/src/agent/mailbox.rs`).  A call of `send` has three steps
that others can come between: it puts the mail into a bounded channel, takes the next number, and
publishes that number to the watchers.  The receiver moves mails from the channel to the mails that
are pending, one at a time and as long as there are not too many, and then looks at them or takes
them.

Senders have lists of mails to send, one after another.  A `Label` is one step of a sender or of
the receiver, and a run takes steps in any order.  What was accepted, and what the calls returned,
is recorded.

Every accepted mail is delivered once and in order, and a number that is watched never promises
more mails than there are (`Truthful`).  The numbers are distinct and have no gaps as long as they
do not go around.  But the steps that take a number and publish it are apart, so the number that
was published last need not be the greatest: `mailbox_truthful` says when it is.
-/

namespace Praxis.Agent

open Foundation

variable {μ : Type}

/-- `Mailbox::CAPACITY`. -/
def mailboxCapacity : Nat := 256

/-- Where a sender is: between two calls, behind `try_send`, or behind `fetch_add`. -/
inductive SendPoint where
  | ready
  | accepted
  | numbered (seq : UInt64)
deriving DecidableEq

/-- The number to be published. -/
def SendPoint.seq? : SendPoint → Option UInt64
  | .numbered seq => some seq
  | _ => none

structure Sender (μ : Type) where
  unsent : List μ
  point : SendPoint
  /-- What the calls of `send` have returned. -/
  results : List (Option UInt64)

inductive ReceiverCall where
  | hasPending
  | hasPendingTriggerTurn
  | takePending
deriving DecidableEq

/-- What a call of the receiver returns. -/
inductive ReceiverAnswer (μ : Type) where
  | flag (value : Bool)
  | mails (pending : List (Nat × μ))

/-- The mails that are taken with an answer. -/
def ReceiverAnswer.taken : ReceiverAnswer μ → List (Nat × μ)
  | .flag _ => []
  | .mails pending => pending

/-- The mailbox, its receiver and its senders.  A mail comes with the number of its sender. -/
structure MailboxState (μ : Type) where
  queue : List (Nat × μ)
  /-- The receiver has been dropped. -/
  closed : Bool
  nextSeq : UInt64
  watched : UInt64
  pendingMails : List (Nat × μ)
  receiver : Option ReceiverCall
  senders : List (Sender μ)
  accepted : List (Nat × μ)
  answers : List (ReceiverAnswer μ)

namespace MailboxState

/-- `Mailbox::new`, and senders with mails to send. -/
def start (programs : List (List μ)) : MailboxState μ where
  queue := []
  closed := false
  nextSeq := 0
  watched := 0
  pendingMails := []
  receiver := none
  senders := programs.map fun program ↦ ⟨program, .ready, []⟩
  accepted := []
  answers := []

/-! ## Steps -/

/-- The next step of a sender in `send`. -/
def send (i : Nat) (sender : Sender μ) (s : MailboxState μ) : Option (MailboxState μ) :=
  match sender.point with
  | .ready =>
    match sender.unsent with
    | [] => none
    | mail :: unsent =>
      -- `try_send` fails with `Closed` or `Full`
      if s.closed ∨ mailboxCapacity ≤ s.queue.length then
        some { s with senders := s.senders.set i ⟨unsent, .ready, sender.results ++ [none]⟩ }
      else
        some { s with
          queue := s.queue ++ [(i, mail)]
          accepted := s.accepted ++ [(i, mail)]
          senders := s.senders.set i ⟨unsent, .accepted, sender.results⟩ }
  | .accepted =>
    -- `fetch_add` wraps around, and so does the addition behind it
    some { s with
      nextSeq := s.nextSeq + 1
      senders := s.senders.set i ⟨sender.unsent, .numbered (s.nextSeq + 1), sender.results⟩ }
  | .numbered seq =>
    some { s with
      watched := seq
      senders := s.senders.set i ⟨sender.unsent, .ready, sender.results ++ [some seq]⟩ }

/-- What a call makes of the mails when they are synced: what it returns, and what is still
pending. -/
def reply (triggerTurn : μ → Bool) (call : ReceiverCall) (pendingMails : List (Nat × μ)) :
    ReceiverAnswer μ × List (Nat × μ) :=
  match call with
  | .hasPending => (.flag !pendingMails.isEmpty, pendingMails)
  | .hasPendingTriggerTurn =>
    (.flag (pendingMails.any fun mail ↦ triggerTurn mail.2), pendingMails)
  | .takePending => (.mails pendingMails, [])

/-- The call returns. -/
def answer (triggerTurn : μ → Bool) (call : ReceiverCall) (s : MailboxState μ) : MailboxState μ :=
  { s with
    receiver := none
    answers := s.answers ++ [(reply triggerTurn call s.pendingMails).1]
    pendingMails := (reply triggerTurn call s.pendingMails).2 }

/-- The next round of the loop in `sync_pending_mails`; behind the last one the call returns. -/
def receive (triggerTurn : μ → Bool) (call : ReceiverCall) (s : MailboxState μ) :
    MailboxState μ :=
  if s.pendingMails.length < mailboxCapacity then
    match s.queue with
    | mail :: queue => { s with queue, pendingMails := s.pendingMails ++ [mail] }
    | [] => s.answer triggerTurn call
  else s.answer triggerTurn call

inductive Label where
  | send (sender : Nat)
  | call (call : ReceiverCall)
  | receive
  | dropReceiver
deriving DecidableEq

/-- The calls of the receiver need it mutably, so there is one at a time. -/
def step (triggerTurn : μ → Bool) (s : MailboxState μ) : Label → Option (MailboxState μ)
  | .send i => s.senders[i]?.bind fun sender ↦ s.send i sender
  | .call call =>
    if s.receiver = none ∧ s.closed = false then some { s with receiver := some call } else none
  | .receive => s.receiver.map fun call ↦ s.receive triggerTurn call
  | .dropReceiver =>
    if s.receiver = none ∧ s.closed = false then
      some { s with closed := true, queue := [], pendingMails := [] }
    else none

/-- A step that meets a condition. -/
def Taken (triggerTurn : μ → Bool) (guard : MailboxState μ → Label → Prop) (s : MailboxState μ)
    (label : Label) (t : MailboxState μ) : Prop :=
  guard s label ∧ s.step triggerTurn label = some t

/-! ## What is recorded -/

/-- The mails that the receiver has taken. -/
def taken (s : MailboxState μ) : List (Nat × μ) := s.answers.flatMap ReceiverAnswer.taken

/-- The mails of a sender. -/
def mailsOf (i : Nat) (mails : List (Nat × μ)) : List μ :=
  (mails.filter fun mail ↦ mail.1 = i).map Prod.snd

/-- The mails whose call was accepted. -/
def acceptedOf (sent : List μ) (outcomes : List Bool) : List μ :=
  ((sent.zip outcomes).filter Prod.snd).map Prod.fst

/-- The calls of a sender that have returned, and the one that was accepted and has not. -/
def outcomes (sender : Sender μ) : List Bool :=
  sender.results.map Option.isSome ++
    match sender.point with
    | .ready => []
    | _ => [true]

/-- The numbers that a sender was given, returned or not. -/
def numbers (sender : Sender μ) : List Nat :=
  (sender.results.reduceOption ++ sender.point.seq?.toList).map UInt64.toNat

/-- The numbers that were returned. -/
def returned (s : MailboxState μ) : List Nat :=
  s.senders.flatMap fun sender ↦ sender.results.reduceOption.map UInt64.toNat

/-- All calls of `send` have returned. -/
def Settled (s : MailboxState μ) : Prop := ∀ sender ∈ s.senders, sender.point = .ready

instance (s : MailboxState μ) : Decidable s.Settled :=
  inferInstanceAs (Decidable (∀ sender ∈ s.senders, sender.point = .ready))

/-! ## What a step can do -/

variable {triggerTurn : μ → Bool} {s t : MailboxState μ} {label : Label} {i : Nat}
  {sender : Sender μ}

/-- The steps, one by one. -/
inductive Moved (triggerTurn : μ → Bool) (s : MailboxState μ) : Label → MailboxState μ → Prop
  | rejected {i : Nat} {sender : Sender μ} {mail : μ} {unsent : List μ}
      (hsender : s.senders[i]? = some sender) (hpoint : sender.point = .ready)
      (hunsent : sender.unsent = mail :: unsent) :
      Moved triggerTurn s (.send i)
        { s with senders := s.senders.set i ⟨unsent, .ready, sender.results ++ [none]⟩ }
  | enqueued {i : Nat} {sender : Sender μ} {mail : μ} {unsent : List μ}
      (hsender : s.senders[i]? = some sender) (hpoint : sender.point = .ready)
      (hunsent : sender.unsent = mail :: unsent) (hopen : s.closed = false)
      (hroom : s.queue.length < mailboxCapacity) :
      Moved triggerTurn s (.send i)
        { s with
          queue := s.queue ++ [(i, mail)]
          accepted := s.accepted ++ [(i, mail)]
          senders := s.senders.set i ⟨unsent, .accepted, sender.results⟩ }
  | numbered {i : Nat} {sender : Sender μ} (hsender : s.senders[i]? = some sender)
      (hpoint : sender.point = .accepted) :
      Moved triggerTurn s (.send i)
        { s with
          nextSeq := s.nextSeq + 1
          senders := s.senders.set i
            ⟨sender.unsent, .numbered (s.nextSeq + 1), sender.results⟩ }
  | published {i : Nat} {sender : Sender μ} {seq : UInt64} (hsender : s.senders[i]? = some sender)
      (hpoint : sender.point = .numbered seq) :
      Moved triggerTurn s (.send i)
        { s with
          watched := seq
          senders := s.senders.set i ⟨sender.unsent, .ready, sender.results ++ [some seq]⟩ }
  | called {call : ReceiverCall} (hidle : s.receiver = none) (hopen : s.closed = false) :
      Moved triggerTurn s (.call call) { s with receiver := some call }
  | synced {mail : Nat × μ} {queue : List (Nat × μ)} (hqueue : s.queue = mail :: queue)
      (hroom : s.pendingMails.length < mailboxCapacity) :
      Moved triggerTurn s .receive { s with queue, pendingMails := s.pendingMails ++ [mail] }
  | answered {call : ReceiverCall} (hcall : s.receiver = some call) :
      Moved triggerTurn s .receive (s.answer triggerTurn call)
  | dropped (hidle : s.receiver = none) (hopen : s.closed = false) :
      Moved triggerTurn s .dropReceiver
        { s with closed := true, queue := [], pendingMails := [] }

theorem moved_of_send (hsender : s.senders[i]? = some sender) (h : s.send i sender = some t) :
    Moved triggerTurn s (.send i) t := by
  unfold send at h
  split at h
  next hpoint =>
    split at h
    next => cases h
    next mail unsent hunsent =>
      split at h
      next => cases h; exact .rejected hsender hpoint hunsent
      next hfull =>
        obtain ⟨hopen, hroom⟩ := not_or.mp hfull
        cases h
        exact .enqueued hsender hpoint hunsent (eq_false_of_ne_true hopen)
          (Nat.lt_of_not_le hroom)
  next hpoint => cases h; exact .numbered hsender hpoint
  next seq hpoint => cases h; exact .published hsender hpoint

theorem moved_of_receive {call : ReceiverCall} (hcall : s.receiver = some call) :
    Moved triggerTurn s .receive (s.receive triggerTurn call) := by
  unfold receive
  split
  next hroom =>
    split
    next mail queue hqueue => exact .synced hqueue hroom
    next => exact .answered hcall
  next => exact .answered hcall

theorem moved_of_step (h : s.step triggerTurn label = some t) : Moved triggerTurn s label t := by
  cases label with
  | send i =>
    obtain ⟨sender, hsender, hsend⟩ := Option.bind_eq_some_iff.mp h
    exact moved_of_send hsender hsend
  | call call =>
    obtain ⟨⟨hidle, hopen⟩, rfl⟩ := Option.ite_none_right_eq_some.mp h |>.imp id Option.some.inj
    exact .called hidle hopen
  | receive =>
    obtain ⟨call, hcall, rfl⟩ := Option.map_eq_some_iff.mp h
    exact moved_of_receive hcall
  | dropReceiver =>
    obtain ⟨⟨hidle, hopen⟩, rfl⟩ := Option.ite_none_right_eq_some.mp h |>.imp id Option.some.inj
    exact .dropped hidle hopen

/-! ## Mails -/

/-- Every accepted mail is in one place, and what a dropped receiver left behind is lost. -/
structure Delivers (s : MailboxState μ) : Prop where
  places : ∃ lost, s.taken ++ s.pendingMails ++ s.queue ++ lost = s.accepted ∧
    (s.closed = false → lost = [])
  queue : s.queue.length ≤ mailboxCapacity
  pending : s.pendingMails.length ≤ mailboxCapacity

/-- A reply keeps the mails that it does not return. -/
theorem taken_reply (triggerTurn : μ → Bool) (call : ReceiverCall) (mails : List (Nat × μ)) :
    (reply triggerTurn call mails).1.taken ++ (reply triggerTurn call mails).2 = mails := by
  cases call with
  | hasPending | hasPendingTriggerTurn => rfl
  | takePending => exact List.append_nil mails

theorem taken_answer (call : ReceiverCall) :
    (s.answer triggerTurn call).taken ++ (s.answer triggerTurn call).pendingMails =
      s.taken ++ s.pendingMails := by
  rw [answer, taken, taken, List.flatMap_append, List.flatMap_singleton, List.append_assoc,
    taken_reply]

theorem Delivers.step (h : Delivers s) (hmoved : Moved triggerTurn s label t) : Delivers t := by
  obtain ⟨⟨lost, hplaces, hlost⟩, hqueue, hpending⟩ := h
  cases hmoved with
  | rejected | numbered | published | called => exact ⟨⟨lost, hplaces, hlost⟩, hqueue, hpending⟩
  | @enqueued i _ mail _ _ _ _ hopen hroom =>
    obtain rfl := hlost hopen
    refine ⟨⟨[], ?_, fun _ ↦ rfl⟩, ?_, hpending⟩
    · rw [← hplaces, List.append_nil, List.append_nil]
      exact (List.append_assoc _ _ _).symm
    · rw [List.length_append]
      exact hroom
  | @synced mail queue hcons hroom =>
    refine ⟨⟨lost, ?_, hlost⟩, ?_, ?_⟩
    · rw [← hplaces, hcons]
      change s.taken ++ (s.pendingMails ++ [mail]) ++ queue ++ lost = _
      simp only [List.append_assoc, List.cons_append, List.nil_append]
    · rw [hcons] at hqueue
      exact Nat.le_of_succ_le hqueue
    · rw [List.length_append]
      exact hroom
  | @answered call hcall =>
    refine ⟨⟨lost, ?_, hlost⟩, hqueue, ?_⟩
    · rw [taken_answer]
      exact hplaces
    · refine le_trans ?_ hpending
      conv_rhs => rw [← taken_reply triggerTurn call s.pendingMails, List.length_append]
      exact Nat.le_add_left _ _
  | dropped hidle hopen =>
    refine ⟨⟨s.pendingMails ++ s.queue ++ lost, ?_, nofun⟩, Nat.zero_le _, Nat.zero_le _⟩
    rw [← hplaces]
    change s.taken ++ [] ++ [] ++ (s.pendingMails ++ s.queue ++ lost) = _
    simp only [List.append_assoc, List.nil_append]

/-! ### Taking what is left -/

theorem steps_answer {call : ReceiverCall} (hcall : s.receiver = some call)
    (h : s.receive triggerTurn call = s.answer triggerTurn call) :
    Steps (Taken triggerTurn fun _ _ ↦ True) s (List.replicate 1 .receive)
      (s.answer triggerTurn call) := by
  refine .cons ⟨trivial, ?_⟩ (.nil _)
  rw [step, hcall, Option.map_some, h]

/-- The receiver alone finishes its call: it syncs as many mails as there is room for. -/
theorem exists_answered {call : ReceiverCall} {queue : List (Nat × μ)}
    (hcall : s.receiver = some call) (hqueue : s.queue = queue) :
    ∃ n, Steps (Taken triggerTurn fun _ _ ↦ True) s (List.replicate n .receive)
      (answer triggerTurn call { s with
        queue := queue.drop (mailboxCapacity - s.pendingMails.length)
        pendingMails := s.pendingMails ++
          queue.take (mailboxCapacity - s.pendingMails.length) }) := by
  induction queue generalizing s with
  | nil =>
    refine ⟨1, ?_⟩
    rw [List.drop_nil, List.take_nil, List.append_nil, ← hqueue]
    refine steps_answer hcall ?_
    rw [receive, hqueue, ite_self]
  | cons mail queue ih =>
    by_cases hroom : s.pendingMails.length < mailboxCapacity
    · obtain ⟨n, hrun⟩ :=
        @ih { s with queue, pendingMails := s.pendingMails ++ [mail] } hcall rfl
      obtain ⟨k, hk⟩ : ∃ k, mailboxCapacity - s.pendingMails.length = k + 1 :=
        ⟨mailboxCapacity - s.pendingMails.length - 1, by omega⟩
      have hnext : mailboxCapacity - (s.pendingMails ++ [mail]).length = k := by
        rw [List.length_append, List.length_singleton]
        omega
      rw [hnext] at hrun
      have hstep : s.step triggerTurn .receive =
          some { s with queue, pendingMails := s.pendingMails ++ [mail] } := by
        have hreceive : s.receive triggerTurn call =
            { s with queue, pendingMails := s.pendingMails ++ [mail] } := by
          rw [receive, if_pos hroom, hqueue]
        rw [step, hcall, Option.map_some, hreceive, hcall]
      refine ⟨n + 1, .cons ⟨trivial, hstep⟩ ?_⟩
      have hmails : s.pendingMails ++ mail :: queue.take k =
          s.pendingMails ++ [mail] ++ queue.take k := List.append_cons ..
      rw [hk, List.drop_succ_cons, List.take_succ_cons, hmails]
      exact hrun
    · have hfull : mailboxCapacity - s.pendingMails.length = 0 := by omega
      refine ⟨1, ?_⟩
      rw [hfull, List.drop_zero, List.take_zero, List.append_nil, ← hqueue]
      refine steps_answer hcall ?_
      rw [receive, if_neg hroom]

/-- A step of the receiver while it takes mails. -/
def Label.takes (label : Label) : Prop := label = .call .takePending ∨ label = .receive

/-- One call of `take_pending`, with nothing else in between. -/
theorem exists_takePending (hidle : s.receiver = none) (hopen : s.closed = false) :
    ∃ labels t, (∀ label ∈ labels, label.takes) ∧
      Steps (Taken triggerTurn fun _ _ ↦ True) s labels t ∧
      t.taken = s.taken ++ (s.pendingMails ++
        s.queue.take (mailboxCapacity - s.pendingMails.length)) ∧
      t.pendingMails = [] ∧ t.queue = s.queue.drop (mailboxCapacity - s.pendingMails.length) ∧
      t.receiver = none ∧ t.closed = false := by
  obtain ⟨n, hrun⟩ := @exists_answered _ triggerTurn { s with receiver := some .takePending }
    .takePending s.queue rfl rfl
  refine ⟨.call .takePending :: List.replicate n .receive, _, ?_, .cons ⟨trivial, ?_⟩ hrun, ?_,
    rfl, rfl, rfl, hopen⟩
  · intro label hmem
    rcases List.mem_cons.mp hmem with rfl | hmem
    · exact .inl rfl
    · exact .inr (List.eq_of_mem_replicate hmem)
  · exact if_pos ⟨hidle, hopen⟩
  · rw [answer, taken, List.flatMap_append, List.flatMap_singleton]
    rfl

/-- Two calls of `take_pending` take everything that was accepted. -/
theorem exists_taken (h : Delivers s) (hidle : s.receiver = none) (hopen : s.closed = false) :
    ∃ labels t, (∀ label ∈ labels, label.takes) ∧
      Steps (Taken triggerTurn fun _ _ ↦ True) s labels t ∧ t.taken = s.accepted := by
  obtain ⟨first, u, hfirst, hu, htaken, hpending, hqueue, hidle, hopen'⟩ :=
    exists_takePending hidle hopen
  obtain ⟨second, t, hsecond, ht, htaken', -⟩ := exists_takePending hidle hopen'
  refine ⟨first ++ second, t, ?_, steps_append_iff.mpr ⟨u, hu, ht⟩, ?_⟩
  · intro label hmem
    exact (List.mem_append.mp hmem).elim (hfirst label) (hsecond label)
  · obtain ⟨lost, hplaces, hlost⟩ := h.places
    obtain rfl := hlost hopen
    have hall : u.queue.length ≤ mailboxCapacity := by
      rw [hqueue, List.length_drop]
      exact (Nat.sub_le _ _).trans h.queue
    rw [htaken', hpending, List.nil_append, List.length_nil, Nat.sub_zero,
      List.take_of_length_le hall, htaken, hqueue, ← hplaces]
    simp only [List.append_assoc, List.take_append_drop, List.append_nil]

/-! ## Senders -/

/-- A sender has sent the first mails of its program, and those that were accepted are its mails in
the order of its program. -/
def Sends (accepted : List (Nat × μ)) (program : List μ) (i : Nat) (sender : Sender μ) : Prop :=
  ∃ sent, program = sent ++ sender.unsent ∧ sent.length = (outcomes sender).length ∧
    mailsOf i accepted = acceptedOf sent (outcomes sender)

structure AllSend (programs : List (List μ)) (senders : List (Sender μ))
    (accepted : List (Nat × μ)) : Prop where
  length : senders.length = programs.length
  sends : ∀ i program sender, programs[i]? = some program → senders[i]? = some sender →
    Sends accepted program i sender

theorem acceptedOf_concat {sent : List μ} {outcomes : List Bool}
    (h : sent.length = outcomes.length) (mail : μ) (outcome : Bool) :
    acceptedOf (sent ++ [mail]) (outcomes ++ [outcome]) =
      acceptedOf sent outcomes ++ if outcome then [mail] else [] := by
  unfold acceptedOf
  rw [List.zip_append h, List.filter_append, List.map_append]
  cases outcome <;> rfl

theorem mailsOf_concat (i j : Nat) (mails : List (Nat × μ)) (mail : μ) :
    mailsOf i (mails ++ [(j, mail)]) = mailsOf i mails ++ if j = i then [mail] else [] := by
  unfold mailsOf
  rw [List.filter_append, List.map_append]
  by_cases hij : j = i <;> simp [hij]

/-- A step of one sender is not seen by the others. -/
theorem AllSend.set {programs : List (List μ)} {senders : List (Sender μ)}
    {accepted accepted' : List (Nat × μ)} {new : Sender μ} (h : AllSend programs senders accepted)
    (hsender : senders[i]? = some sender)
    (hown : ∀ program, Sends accepted program i sender → Sends accepted' program i new)
    (hothers : ∀ j, j ≠ i → mailsOf j accepted' = mailsOf j accepted) :
    AllSend programs (senders.set i new) accepted' := by
  refine ⟨(List.length_set ..).trans h.length, fun j program other hprogram hother ↦ ?_⟩
  by_cases hj : j = i
  · subst hj
    rw [List.getElem?_set_self (List.getElem?_eq_some_iff.mp hsender).1] at hother
    obtain rfl := Option.some.inj hother
    exact hown program (h.sends j program sender hprogram hsender)
  · rw [List.getElem?_set_ne (Ne.symm hj)] at hother
    obtain ⟨sent, hsent, hlength, hmails⟩ := h.sends j program other hprogram hother
    exact ⟨sent, hsent, hlength, (hothers j hj).trans hmails⟩

theorem AllSend.step {programs : List (List μ)} (h : AllSend programs s.senders s.accepted)
    (hmoved : Moved triggerTurn s label t) : AllSend programs t.senders t.accepted := by
  cases hmoved with
  | called | synced | answered | dropped => exact h
  | @rejected i sender mail unsent hsender hpoint hunsent =>
    refine h.set hsender (fun program ⟨sent, hsent, hlength, hmails⟩ ↦ ?_) fun _ _ ↦ rfl
    have houtcomes : outcomes (⟨unsent, .ready, sender.results ++ [none]⟩ : Sender μ) =
        outcomes sender ++ [false] := by
      rw [outcomes, outcomes, hpoint, List.map_append, List.append_nil, List.append_nil]
      rfl
    refine ⟨sent ++ [mail], ?_, ?_, ?_⟩
    · rw [hsent, hunsent, List.append_assoc, List.singleton_append]
    · rw [houtcomes, List.length_append, List.length_append, hlength, List.length_singleton,
        List.length_singleton]
    · rw [houtcomes, acceptedOf_concat hlength, hmails]
      exact (List.append_nil _).symm
  | @enqueued i sender mail unsent hsender hpoint hunsent hopen hroom =>
    refine h.set hsender (fun program ⟨sent, hsent, hlength, hmails⟩ ↦ ?_) fun j hj ↦ ?_
    · have houtcomes : outcomes (⟨unsent, .accepted, sender.results⟩ : Sender μ) =
          outcomes sender ++ [true] := by
        rw [outcomes, outcomes, hpoint, List.append_nil]
      refine ⟨sent ++ [mail], ?_, ?_, ?_⟩
      · rw [hsent, hunsent, List.append_assoc, List.singleton_append]
      · rw [houtcomes, List.length_append, List.length_append, hlength, List.length_singleton,
          List.length_singleton]
      · rw [houtcomes, acceptedOf_concat hlength, mailsOf_concat, hmails, if_pos rfl, if_pos rfl]
    · rw [mailsOf_concat, if_neg (Ne.symm hj), List.append_nil]
  | @numbered i sender hsender hpoint =>
    refine h.set hsender (fun program ⟨sent, hsent, hlength, hmails⟩ ↦ ?_) fun _ _ ↦ rfl
    have houtcomes : outcomes
        (⟨sender.unsent, .numbered (s.nextSeq + 1), sender.results⟩ : Sender μ) =
        outcomes sender := by
      rw [outcomes, outcomes, hpoint]
    exact ⟨sent, hsent, houtcomes ▸ hlength, houtcomes ▸ hmails⟩
  | @published i sender seq hsender hpoint =>
    refine h.set hsender (fun program ⟨sent, hsent, hlength, hmails⟩ ↦ ?_) fun _ _ ↦ rfl
    have houtcomes : outcomes
        (⟨sender.unsent, .ready, sender.results ++ [some seq]⟩ : Sender μ) = outcomes sender := by
      rw [outcomes, outcomes, hpoint, List.map_append, List.append_nil]
      rfl
    exact ⟨sent, hsent, houtcomes ▸ hlength, houtcomes ▸ hmails⟩

/-! ## Numbers -/

/-- Senders that have not taken their number. -/
def unnumbered (senders : List (Sender μ)) : Nat := senders.countP fun sender ↦
  sender.point = .accepted

theorem unnumbered_set {senders : List (Sender μ)} (hsender : senders[i]? = some sender)
    (new : Sender μ) :
    unnumbered (senders.set i new) + (if sender.point = .accepted then 1 else 0) =
      unnumbered senders + if new.point = .accepted then 1 else 0 := by
  have hset := countP_set_add (p := fun sender : Sender μ ↦ decide (sender.point = .accepted))
    (b := new) hsender
  simp only [decide_eq_true_eq] at hset
  exact hset

/-- The numbers that were given to a sender and to others. -/
def given (s : MailboxState μ) : List Nat := s.senders.flatMap numbers

theorem numbers_set {new : Sender μ} {more : List Nat} {senders : List (Sender μ)}
    (hsender : senders[i]? = some sender) (hnew : numbers new = numbers sender ++ more) :
    ((senders.set i new).flatMap numbers).Perm (senders.flatMap numbers ++ more) :=
  flatMap_set_perm hsender (.of_eq hnew)

/-- What a step does to the counts: the mails and the senders without a number change together, or
a sender takes its number. -/
inductive Recounts (s t : MailboxState μ) : Prop
  | same (hnext : t.nextSeq = s.nextSeq)
      (hcount : unnumbered t.senders + s.accepted.length =
        unnumbered s.senders + t.accepted.length)
      (hmore : s.accepted.length ≤ t.accepted.length) (hgiven : t.given.Perm s.given)
  | next (hnext : t.nextSeq = s.nextSeq + 1)
      (hcount : unnumbered t.senders + 1 = unnumbered s.senders)
      (haccepted : t.accepted = s.accepted)
      (hgiven : t.given.Perm (s.given ++ [(s.nextSeq + 1).toNat]))

theorem Moved.recounts (hmoved : Moved triggerTurn s label t) : Recounts s t := by
  cases hmoved with
  | called | synced | answered | dropped => exact .same rfl rfl le_rfl (.refl _)
  | @rejected i sender mail unsent hsender hpoint hunsent =>
    have hcount := unnumbered_set hsender ⟨unsent, .ready, sender.results ++ [none]⟩
    simp only [hpoint, reduceCtorEq, if_false, Nat.add_zero] at hcount
    have hnumbers : numbers (⟨unsent, .ready, sender.results ++ [none]⟩ : Sender μ) =
        numbers sender ++ [] := by
      simp [numbers, hpoint, SendPoint.seq?, List.reduceOption_append]
    exact .same rfl (by rw [hcount]) le_rfl
      ((numbers_set hsender hnumbers).trans (.of_eq (List.append_nil _)))
  | @enqueued i sender mail unsent hsender hpoint hunsent hopen hroom =>
    have hcount := unnumbered_set hsender ⟨unsent, .accepted, sender.results⟩
    simp only [hpoint, reduceCtorEq, if_false, if_true, Nat.add_zero] at hcount
    have hmore : (s.accepted ++ [(i, mail)]).length = s.accepted.length + 1 :=
      List.length_append
    have hnumbers : numbers (⟨unsent, .accepted, sender.results⟩ : Sender μ) =
        numbers sender ++ [] := by
      simp [numbers, hpoint, SendPoint.seq?]
    refine .same rfl ?_ ?_ ((numbers_set hsender hnumbers).trans (.of_eq (List.append_nil _)))
    · rw [hcount, hmore, Nat.add_right_comm, Nat.add_assoc]
    · rw [hmore]
      exact Nat.le_succ _
  | @numbered i sender hsender hpoint =>
    have hcount := unnumbered_set hsender
      ⟨sender.unsent, .numbered (s.nextSeq + 1), sender.results⟩
    simp only [hpoint, reduceCtorEq, if_false, if_true, Nat.add_zero] at hcount
    have hnumbers : numbers
        (⟨sender.unsent, .numbered (s.nextSeq + 1), sender.results⟩ : Sender μ) =
        numbers sender ++ [(s.nextSeq + 1).toNat] := by
      simp [numbers, hpoint, SendPoint.seq?]
    exact .next rfl hcount rfl (numbers_set hsender hnumbers)
  | @published i sender seq hsender hpoint =>
    have hcount := unnumbered_set hsender ⟨sender.unsent, .ready, sender.results ++ [some seq]⟩
    simp only [hpoint, reduceCtorEq, if_false, Nat.add_zero] at hcount
    have hnumbers : numbers (⟨sender.unsent, .ready, sender.results ++ [some seq]⟩ : Sender μ) =
        numbers sender ++ [] := by
      simp [numbers, hpoint, SendPoint.seq?, List.reduceOption_append]
    exact .same rfl (by rw [hcount]) le_rfl
      ((numbers_set hsender hnumbers).trans (.of_eq (List.append_nil _)))

/-- Only numbers that were given are published. -/
theorem Moved.watched (hmoved : Moved triggerTurn s label t) :
    t.watched = s.watched ∨ t.watched.toNat ∈ s.given := by
  cases hmoved with
  | rejected | enqueued | numbered | called | synced | answered | dropped => exact .inl rfl
  | @published i sender seq hsender hpoint =>
    refine .inr (List.mem_flatMap.mpr ⟨sender, List.mem_of_getElem? hsender, ?_⟩)
    simp [numbers, hpoint, SendPoint.seq?]

/-- No number is greater than there are mails. -/
structure Bounded (s : MailboxState μ) : Prop where
  nextSeq : s.nextSeq.toNat + unnumbered s.senders ≤ s.accepted.length
  given : ∀ n ∈ s.given, n ≤ s.accepted.length
  watched : s.watched.toNat ≤ s.accepted.length

theorem toNat_succ_le (n : UInt64) : (n + 1).toNat ≤ n.toNat + 1 := by
  rw [UInt64.toNat_add]
  exact Nat.mod_le _ _

theorem Bounded.step (h : Bounded s) (hmoved : Moved triggerTurn s label t) : Bounded t := by
  obtain ⟨hnext, hgiven, hwatched⟩ := h
  have hmore : s.accepted.length ≤ t.accepted.length := by
    cases hmoved.recounts with
    | same _ _ hmore => exact hmore
    | next _ _ haccepted => rw [haccepted]
  have hwatched' : t.watched.toNat ≤ t.accepted.length := by
    rcases hmoved.watched with hsame | hmem
    · rw [hsame]
      exact hwatched.trans hmore
    · exact (hgiven _ hmem).trans hmore
  cases hmoved.recounts with
  | same hsame hcount _ hperm =>
    refine ⟨?_, fun n hmem ↦ (hgiven n (hperm.subset hmem)).trans hmore, hwatched'⟩
    rw [hsame]
    omega
  | next hsucc hcount haccepted hperm =>
    have hle := toNat_succ_le s.nextSeq
    refine ⟨?_, fun n hmem ↦ ?_, hwatched'⟩
    · rw [hsucc, haccepted]
      omega
    · rw [haccepted]
      rcases List.mem_append.mp (hperm.subset hmem) with hmem | hmem
      · exact hgiven n hmem
      · rw [List.mem_singleton.mp hmem]
        omega

/-! ### Numbers that do not go around -/

/-- The counter is below `u64::MAX`. -/
def HasRoom (s : MailboxState μ) (_ : Label) : Prop := s.nextSeq.toNat + 1 < 2 ^ 64

/-- The numbers that were given are those up to the counter, which lags behind the mails by those
that have none yet. -/
structure Counted (s : MailboxState μ) : Prop where
  nextSeq : s.nextSeq.toNat + unnumbered s.senders = s.accepted.length
  given : s.given.Perm (List.range' 1 s.nextSeq.toNat)

theorem Counted.step (h : Counted s) (hroom : s.HasRoom label)
    (hmoved : Moved triggerTurn s label t) : Counted t := by
  obtain ⟨hnext, hgiven⟩ := h
  cases hmoved.recounts with
  | same hsame hcount _ hperm =>
    rw [← hsame] at hnext hgiven
    exact ⟨by omega, hperm.trans hgiven⟩
  | next hsucc hcount haccepted hperm =>
    have hsucc' : t.nextSeq.toNat = s.nextSeq.toNat + 1 := by
      rw [hsucc, UInt64.toNat_add]
      exact Nat.mod_eq_of_lt hroom
    refine ⟨?_, ?_⟩
    · rw [hsucc', haccepted]
      omega
    · rw [hsucc', List.range'_concat, Nat.one_mul, Nat.add_comm 1, ← hsucc', hsucc]
      exact hperm.trans (hgiven.append_right _)

/-! ### Numbers that are published in order -/

/-- What is published is greater than what was published last. -/
def InOrder (s : MailboxState μ) : Label → Prop
  | .send i => ∀ sender ∈ s.senders[i]?, ∀ seq ∈ sender.point.seq?,
      s.watched.toNat < seq.toNat
  | _ => True

instance (s : MailboxState μ) (label : Label) : Decidable (HasRoom s label) :=
  inferInstanceAs (Decidable (_ < _))

instance (s : MailboxState μ) (label : Label) : Decidable (InOrder s label) :=
  match label with
  | .send i =>
    have (sender : Sender μ) :
        Decidable (∀ seq ∈ sender.point.seq?, s.watched.toNat < seq.toNat) :=
      Option.decidableForallMem _
    inferInstanceAs (Decidable (∀ sender ∈ s.senders[i]?, _))
  | .call _ | .receive | .dropReceiver => .isTrue trivial

/-- The watched number is the greatest that was returned. -/
def Latest (s : MailboxState μ) : Prop :=
  ∀ sender ∈ s.senders, ∀ seq, some seq ∈ sender.results → seq.toNat ≤ s.watched.toNat

theorem forall_mem_set {senders : List (Sender μ)} {P : Sender μ → Prop} {new : Sender μ}
    (h : ∀ sender ∈ senders, P sender) (hnew : P new) :
    ∀ sender ∈ senders.set i new, P sender := by
  intro sender hmem
  rcases List.mem_or_eq_of_mem_set hmem with hmem | rfl
  · exact h sender hmem
  · exact hnew

theorem Latest.step (h : Latest s) (horder : s.InOrder label)
    (hmoved : Moved triggerTurn s label t) : Latest t := by
  cases hmoved with
  | called | synced | answered | dropped => exact h
  | @rejected i sender mail unsent hsender hpoint hunsent =>
    refine forall_mem_set h fun seq hmem ↦ ?_
    rcases List.mem_append.mp hmem with hmem | hmem
    · exact h sender (List.mem_of_getElem? hsender) seq hmem
    · cases List.mem_singleton.mp hmem
  | @enqueued i sender mail unsent hsender =>
    exact forall_mem_set h (h sender (List.mem_of_getElem? hsender))
  | @numbered i sender hsender =>
    exact forall_mem_set h (h sender (List.mem_of_getElem? hsender))
  | @published i sender seq hsender hpoint =>
    have hlt := horder sender hsender seq (congrArg SendPoint.seq? hpoint)
    have hall : ∀ other ∈ s.senders, ∀ n, some n ∈ other.results → n.toNat ≤ seq.toNat :=
      fun other hother n hmem ↦ (h other hother n hmem).trans hlt.le
    refine forall_mem_set hall fun n hmem ↦ ?_
    rcases List.mem_append.mp hmem with hmem | hmem
    · exact hall sender (List.mem_of_getElem? hsender) n hmem
    · obtain rfl : n = seq := Option.some.inj (List.mem_singleton.mp hmem)
      exact le_rfl

/-! ## Whole runs -/

variable {programs : List (List μ)} {labels : List Label} {guard : MailboxState μ → Label → Prop}

theorem Taken.moved (h : Taken triggerTurn guard s label t) : Moved triggerTurn s label t :=
  moved_of_step h.2

theorem given_start (programs : List (List μ)) : (start programs).given = [] := by
  rw [given, start, List.flatMap_eq_nil_iff]
  intro sender hmem
  obtain ⟨program, -, rfl⟩ := List.mem_map.mp hmem
  rfl

theorem unnumbered_eq_zero (h : s.Settled) : unnumbered s.senders = 0 := by
  rw [unnumbered, List.countP_eq_zero]
  intro sender hmem
  rw [h sender hmem]
  decide

theorem settled_start (programs : List (List μ)) : (start programs).Settled := by
  intro sender hmem
  obtain ⟨program, -, rfl⟩ := List.mem_map.mp hmem
  rfl

theorem delivers_of_run (hrun : Steps (Taken triggerTurn guard) (start programs) labels s) :
    Delivers s := by
  refine hrun.invariant (P := Delivers) (fun s label t h hstep ↦ h.step hstep.moved) ?_
  exact ⟨⟨[], rfl, fun _ ↦ rfl⟩, Nat.zero_le _, Nat.zero_le _⟩

theorem allSend_of_run (hrun : Steps (Taken triggerTurn guard) (start programs) labels s) :
    AllSend programs s.senders s.accepted := by
  refine hrun.invariant (P := fun s ↦ AllSend programs s.senders s.accepted)
    (fun s label t h hstep ↦ h.step hstep.moved) ⟨List.length_map .., ?_⟩
  intro i program sender hprogram hsender
  rw [start, List.getElem?_map, hprogram, Option.map_some] at hsender
  obtain rfl := Option.some.inj hsender
  exact ⟨[], rfl, rfl, rfl⟩

theorem bounded_of_run (hrun : Steps (Taken triggerTurn guard) (start programs) labels s) :
    Bounded s := by
  refine hrun.invariant (P := Bounded) (fun s label t h hstep ↦ h.step hstep.moved) ⟨?_, ?_, ?_⟩
  · rw [unnumbered_eq_zero (settled_start programs)]
    exact Nat.zero_le _
  · rw [given_start]
    exact nofun
  · exact Nat.zero_le _

theorem counted_of_run (hroom : ∀ s label, guard s label → HasRoom s label)
    (hrun : Steps (Taken triggerTurn guard) (start programs) labels s) : Counted s := by
  refine hrun.invariant (P := Counted)
    (fun s label t h hstep ↦ h.step (hroom s label hstep.1) hstep.moved) ⟨?_, ?_⟩
  · rw [unnumbered_eq_zero (settled_start programs)]
    rfl
  · rw [given_start]
    exact .refl _

theorem latest_of_run (horder : ∀ s label, guard s label → InOrder s label)
    (hrun : Steps (Taken triggerTurn guard) (start programs) labels s) : Latest s := by
  refine hrun.invariant (P := Latest)
    (fun s label t h hstep ↦ h.step (horder s label hstep.1) hstep.moved) fun sender hmem ↦ ?_
  obtain ⟨program, -, rfl⟩ := List.mem_map.mp hmem
  exact nofun

theorem returned_sublist (s : MailboxState μ) : s.returned.Sublist s.given := by
  refine List.Sublist.flatMap_right s.senders fun sender _ ↦ ?_
  rw [numbers, List.map_append]
  exact List.sublist_append_left _ _

theorem returned_eq_given (h : s.Settled) : s.returned = s.given := by
  refine List.flatMap_congr fun sender hmem ↦ ?_
  rw [numbers, h sender hmem]
  exact congrArg (List.map UInt64.toNat) (List.append_nil _).symm

/-- What senders, the receiver and watchers can rely on in every state of every run. -/
structure Truthful (triggerTurn : μ → Bool) (programs : List (List μ)) (s : MailboxState μ) :
    Prop where
  /-- Every accepted mail is in one place. -/
  once : s.closed = false → s.taken ++ s.pendingMails ++ s.queue = s.accepted
  /-- The receiver can take all mails. -/
  takes : s.receiver = none → s.closed = false → ∃ labels t, (∀ label ∈ labels, label.takes) ∧
    Steps (Taken triggerTurn fun _ _ ↦ True) s labels t ∧ t.taken = s.accepted
  /-- Mails are taken in the order in which they were accepted. -/
  order : s.taken <+: s.accepted
  /-- That is, for each sender, the order in which it sends. -/
  sends : ∀ i program sender, programs[i]? = some program → s.senders[i]? = some sender →
    Sends s.accepted program i sender
  watched : s.watched.toNat ≤ s.accepted.length

/-- The numbers are distinct, and those up to the number of mails when all calls have returned. -/
structure NumbersAll (s : MailboxState μ) : Prop where
  distinct : s.returned.Nodup
  covers : s.Settled → s.returned.Perm (List.range' 1 s.accepted.length)

theorem truthful_of_run (hrun : Steps (Taken triggerTurn guard) (start programs) labels s) :
    Truthful triggerTurn programs s := by
  have hdelivers := delivers_of_run hrun
  obtain ⟨lost, hplaces, hlost⟩ := hdelivers.places
  refine ⟨fun hopen ↦ ?_, exists_taken hdelivers, ⟨s.pendingMails ++ s.queue ++ lost, ?_⟩,
    (allSend_of_run hrun).sends, (bounded_of_run hrun).watched⟩
  · obtain rfl := hlost hopen
    rw [← hplaces, List.append_nil]
  · rw [← hplaces, List.append_assoc, List.append_assoc, List.append_assoc]

theorem Counted.returned_perm (h : Counted s) (hsettled : s.Settled) :
    s.returned.Perm (List.range' 1 s.accepted.length) := by
  have hnext := h.nextSeq
  rw [unnumbered_eq_zero hsettled, Nat.add_zero] at hnext
  rw [returned_eq_given hsettled, ← hnext]
  exact h.given

theorem Counted.numbersAll (h : Counted s) : NumbersAll s := by
  refine ⟨?_, h.returned_perm⟩
  exact (returned_sublist s).nodup (h.given.nodup_iff.mpr List.nodup_range')

/-- Numbers that are published in order end with the greatest. -/
theorem watched_eq (hbounded : Bounded s) (hcounted : Counted s) (hlatest : Latest s)
    (hsettled : s.Settled) : s.watched.toNat = s.accepted.length := by
  refine le_antisymm hbounded.watched ?_
  rcases Nat.eq_zero_or_pos s.accepted.length with hzero | hpos
  · rw [hzero]
    exact Nat.zero_le _
  · have hmem : s.accepted.length ∈ s.returned := by
      rw [(hcounted.returned_perm hsettled).mem_iff, List.mem_range'_1]
      omega
    obtain ⟨sender, hsender, hresult⟩ := List.mem_flatMap.mp hmem
    obtain ⟨seq, hseq, hlast⟩ := List.mem_map.mp hresult
    rw [← hlast]
    exact hlatest sender hsender seq (List.reduceOption_mem_iff.mp hseq)

/-- Mails are delivered once and in order, and a watched number is that of mails that were
accepted; the numbers are distinct and have no gaps unless the counter goes around; and if numbers
are published in order, the last to be watched is the number of mails. -/
theorem mailbox_truthful (triggerTurn : μ → Bool) (programs : List (List μ))
    (labels : List Label) (s : MailboxState μ) :
    (Steps (Taken triggerTurn fun _ _ ↦ True) (start programs) labels s →
      Truthful triggerTurn programs s) ∧
    (Steps (Taken triggerTurn HasRoom) (start programs) labels s → NumbersAll s) ∧
    (Steps (Taken triggerTurn fun s label ↦ HasRoom s label ∧ InOrder s label)
      (start programs) labels s → s.Settled → s.watched.toNat = s.accepted.length) := by
  refine ⟨truthful_of_run, fun hrun ↦ ?_, fun hrun ↦ ?_⟩
  · exact (counted_of_run (fun _ _ h ↦ h) hrun).numbersAll
  · exact watched_eq (bounded_of_run hrun) (counted_of_run (fun _ _ h ↦ h.1) hrun)
      (latest_of_run (fun _ _ h ↦ h.2) hrun)

/-- Two senders with a mail each. -/
def twoSenders : List (List Unit) := [[()], [()]]

/-- The second sends its mail between the steps of the first, and the mails are taken. -/
def orderlyLabels : List Label :=
  [.send 0, .send 0, .send 1, .send 0, .send 1, .send 1, .call .takePending, .receive, .receive,
    .receive]

/-- The steps of a run whose numbers are in order and do not go around. -/
def orderlyStep (s : MailboxState Unit) (label : Label) : Option (MailboxState Unit) :=
  if HasRoom s label ∧ InOrder s label then s.step (fun _ ↦ false) label else none

theorem mailbox_truthful_two :
    ∃ s, Truthful (fun _ ↦ false) twoSenders s ∧ NumbersAll s ∧
      s.watched.toNat = s.accepted.length ∧ s.taken = [(0, ()), (1, ())] := by
  obtain ⟨s, hrun, hsettled, htaken⟩ :
      ∃ s, orderlyLabels.foldlM orderlyStep (start twoSenders) = some s ∧ s.Settled ∧
        s.taken = [(0, ()), (1, ())] := ⟨_, rfl, by decide, by decide⟩
  have hsteps : Steps (Taken (fun _ ↦ false) fun s label ↦ HasRoom s label ∧ InOrder s label)
      (start twoSenders) orderlyLabels s :=
    steps_of_foldlM orderlyStep (fun _ _ _ h ↦ Option.ite_none_right_eq_some.mp h) hrun
  obtain ⟨htruthful, hnumbers, hwatched⟩ :=
    mailbox_truthful (fun _ ↦ false) twoSenders orderlyLabels s
  refine ⟨s, htruthful (hsteps.mono ?_), hnumbers (hsteps.mono ?_), hwatched hsteps hsettled,
    htaken⟩
  · exact fun _ _ _ _ h ↦ ⟨trivial, h.2⟩
  · exact fun _ _ _ _ h ↦ ⟨h.1.1, h.2⟩

/-- The first takes its number first and publishes it last. -/
def overlappingLabels : List Label := [.send 0, .send 0, .send 1, .send 1, .send 1, .send 0]

/-- All calls have returned, and the watched number is behind the mails. -/
theorem watched_goes_back :
    ∃ s, Steps (Taken (fun _ ↦ false) fun _ _ ↦ True) (start twoSenders) overlappingLabels s ∧
      s.Settled ∧ s.watched.toNat ≠ s.accepted.length := by
  obtain ⟨s, hrun, hsettled, hwatched⟩ :
      ∃ s, overlappingLabels.foldlM (step fun _ ↦ false) (start twoSenders) = some s ∧
        s.Settled ∧ s.watched.toNat ≠ s.accepted.length := ⟨_, rfl, by decide, by decide⟩
  exact ⟨s, steps_of_foldlM _ (fun _ _ _ h ↦ ⟨trivial, h⟩) hrun, hsettled, hwatched⟩

end MailboxState

end Praxis.Agent
