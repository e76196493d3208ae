import StoreClient.Proofs.Discipline
import StoreClient.Proofs.Severity

/-!
# The condition of a connection

Between two operations a connection is open and knows of no failure, or it is closed and knows
the failure that closed it, or it was closed by its owner for good. `Connection.Sound` says so. It
is proved along every run, in which calls may also be dropped on their way. Inside an operation
less holds: a stream is opened again while the last failure is still known.
-/

namespace StoreClient

/-- The error of the entry, if it has one, is not that of a closed connection. -/
def Entry.IsLive (entry : Entry) : Prop := ∀ e, entry.error = some e → e.isClosed = false

/-- A flaw does not speak of a closed connection. -/
theorem Error.isClosed_eq_false_of_isFlaw {e : Error} (h : e.isFlaw = true) :
    e.isClosed = false := by
  cases e with
  | protocol => rfl
  | _ => cases h

/-- The rejection of an answer does not speak of a closed connection. -/
theorem Action.isClosed_rejection (label : String) (value : Value) :
    (rejection label value).isClosed = false := by
  cases value with
  | code c =>
    simp only [rejection]
    split <;> rfl
  | _ => rfl

namespace Reader

/-- The entries of the outcome are live, and its failure is not that of a closed connection. -/
def Outcome.IsLive : Outcome → Prop
  | .batch entries => ∀ entry ∈ entries, entry.IsLive
  | .failed failure => failure.error.isClosed = false
  | .stalled => True

/-- What a poll makes of the buffer, as the outcome of a read. -/
def Poll.outcome : Poll → Outcome
  | .batch entries _ => .batch entries
  | .failed failure _ => .failed failure
  | .wanting _ => .stalled

/-- The outcome of a poll is live. -/
theorem isLive_of_poll_eq {reader : Reader} {poll : Poll} (h : reader.poll = poll) :
    poll.outcome.IsLive := by
  cases polls_of_poll_eq h with
  | batch hdecode =>
    intro entry hentry e he
    exact Error.isClosed_eq_false_of_isFlaw (Batch.isFlaw_of_decode hdecode entry hentry e he)
  | broken hdecode =>
    obtain ⟨e, -, rfl⟩ := Batch.decode_eq_broken_iff.mp hdecode
    exact rfl
  | full => exact rfl
  | wanting => trivial

/-- The outcome of a read is live. -/
theorem isLive_read (reader : Reader) (ended : Bool) (arrivals : List Arrival) :
    (reader.read ended arrivals).outcome.IsLive := by
  fun_induction read reader ended arrivals with
  | case1 arrivals reader entries after hpoll => exact isLive_of_poll_eq hpoll
  | case2 arrivals reader failure after hpoll => exact isLive_of_poll_eq hpoll
  | case3 reader after hpoll hended => exact rfl
  | case4 reader after hpoll hended => trivial
  | case5 reader after hpoll rest => exact rfl
  | case6 reader after hpoll kind rest => exact rfl
  | case7 reader after hpoll chunk rest hne ih => exact ih

end Reader

namespace Connection

section NoteAbandoned

variable (conn : Connection)

/-- An exchange that was given up is noted as the failure. -/
@[simp]
theorem failure_noteAbandoned : conn.noteAbandoned.failure = conn.lastError := by
  unfold noteAbandoned
  split
  · rfl
  · rename_i hinFlight
    rw [lastError, if_neg hinFlight, Option.or_none]

/-- When an exchange that was given up is noted, none is in flight. -/
@[simp]
theorem inFlight_noteAbandoned : conn.noteAbandoned.inFlight = false := by
  unfold noteAbandoned
  split
  · rfl
  · rename_i hinFlight
    exact Bool.eq_false_iff.mpr hinFlight

/-- Without an exchange in flight there is nothing to note. -/
theorem noteAbandoned_of_inFlight (h : conn.inFlight = false) : conn.noteAbandoned = conn := by
  rw [noteAbandoned, h]
  rfl

/-- Noting an exchange that was given up does not open or close the connection. -/
@[simp]
theorem isClosed_noteAbandoned : conn.noteAbandoned.isClosed = conn.isClosed := by
  unfold noteAbandoned
  split <;> rfl

/-- Noting an exchange that was given up does not shut the connection. -/
@[simp]
theorem shut_noteAbandoned : conn.noteAbandoned.shut = conn.shut := by
  unfold noteAbandoned
  split <;> rfl

/-- Noting an exchange that was given up leaves the settings as they are. -/
@[simp]
theorem config_noteAbandoned : conn.noteAbandoned.config = conn.config := by
  unfold noteAbandoned
  split <;> rfl

/-- The last error is the same before and after it is noted. -/
@[simp]
theorem lastError_noteAbandoned : conn.noteAbandoned.lastError = conn.lastError := by
  simp [lastError]

end NoteAbandoned

/-- An open connection has a stream. -/
theorem exists_stream {conn : Connection} (h : conn.isClosed = false) :
    ∃ stream, conn.stream = some stream := by
  rwa [isClosed, Option.isNone_eq_false_iff, Option.isSome_iff_exists] at h

/-- Sending a packet that has actions is an exchange on the line as it is, if the connection is open
and no exchange is in flight. -/
theorem send_of_open {actions : List Action} {line : Line} (hopen : line.conn.isClosed = false)
    (hinFlight : line.conn.inFlight = false) (hactions : actions ≠ []) :
    send actions false line = exchange actions line := by
  obtain ⟨stream, hstream⟩ := exists_stream hopen
  rw [send_eq_exchange hstream hactions, noteAbandoned_of_inFlight _ hinFlight]

/-- With an exchange in flight there is a last error. -/
theorem isSome_lastError_of_inFlight {conn : Connection} (h : conn.inFlight = true) :
    conn.lastError.isSome = true := by
  rw [lastError, h]
  cases conn.failure <;> rfl

/-- What an owner may rely on between two operations: an open connection knows of no failure and
of no exchange in flight, and a closed one knows what closed it, unless it is shut. -/
structure Sound (shut : Bool) (conn : Connection) : Prop where
  shut_eq : conn.shut = shut
  of_open : conn.isClosed = false → conn.lastError = none ∧ conn.inFlight = false
  of_closed : conn.isClosed = true → shut = false → conn.lastError.isSome = true
  of_shut : shut = true → conn.isClosed = true

end Connection

namespace Line

open Connection

/-- The connection is not shut, and this is known about it: whether it has a stream, the failure
before, and whether an exchange has the stream. -/
structure Is (closed : Bool) (failure : Option Error) (inFlight : Bool) (line : Line) : Prop where
  closed_eq : line.conn.isClosed = closed
  failure_eq : line.conn.failure = failure
  inFlight_eq : line.conn.inFlight = inFlight
  shut_eq : line.conn.shut = false

/-- What a call leaves of an open connection when it halts: the connection is as it was or closed
by the failure, which is not that it was closed before; or an exchange has the stream. -/
def HaltsWith (failure : Option Error) : Halt → Line → Prop
  | .failed e, line => e.isClosed = false ∧
      (line.Is false failure false ∨ line.Is true (some e) false)
  | .stalled, line => line.Is true failure true

/-- What is left without a stream when a call halts. -/
def HaltsClosed (failure : Option Error) : Halt → Line → Prop
  | .failed e, line => e.isClosed = false ∧ ∃ known, line.Is true known false
  | .stalled, line => line.Is true failure true

/-- The connection is sound when a call halts. If the call was refused because the connection is
closed, it was refused with what the connection knew of its failure before, and knows still. -/
def Settles (cause : Option Error) (halt : Halt) (line : Line) : Prop :=
  line.conn.Sound false ∧ ∀ e, halt = .failed e → e.isClosed = true →
    e = .closedAfter cause ∧ line.conn.lastError = cause

variable {line : Line} {cause : Option Error} {e : Error}

/-- An open connection that knows of no failure is sound. -/
theorem Is.sound_open (h : line.Is false none false) : line.conn.Sound false where
  shut_eq := h.shut_eq
  of_open _ := ⟨by rw [lastError, h.failure_eq, h.inFlight_eq]; rfl, h.inFlight_eq⟩
  of_closed hclosed := by
    rw [h.closed_eq] at hclosed
    cases hclosed
  of_shut := nofun

/-- The last error is the failure that is known. -/
theorem Is.lastError_eq {closed inFlight : Bool} (h : line.Is closed (some e) inFlight) :
    line.conn.lastError = some e := by
  rw [lastError, h.failure_eq]
  rfl

/-- A closed connection that has a last error is sound. -/
theorem sound_of_closed (hclosed : line.conn.isClosed = true) (hshut : line.conn.shut = false)
    (hcause : line.conn.lastError.isSome = true) : line.conn.Sound false where
  shut_eq := hshut
  of_open hopen := by
    rw [hclosed] at hopen
    cases hopen
  of_closed _ _ := hcause
  of_shut := nofun

/-- A closed connection that knows its failure is sound. -/
theorem Is.sound_closed {inFlight : Bool} (h : line.Is true (some e) inFlight) :
    line.conn.Sound false :=
  sound_of_closed h.closed_eq h.shut_eq (by rw [h.lastError_eq]; rfl)

/-- A connection whose stream an exchange has is sound. -/
theorem Is.sound_inFlight {failure : Option Error} (h : line.Is true failure true) :
    line.conn.Sound false :=
  sound_of_closed h.closed_eq h.shut_eq (isSome_lastError_of_inFlight h.inFlight_eq)

/-- A call that halts on an open connection leaves a sound one. -/
theorem HaltsWith.settles {halt : Halt} (h : HaltsWith none halt line)
    (cause : Option Error) : Settles cause halt line := by
  cases halt with
  | failed e =>
    obtain ⟨hlive, hline⟩ := h
    refine ⟨hline.elim Is.sound_open Is.sound_closed, ?_⟩
    rintro _ ⟨⟩ hclosed
    rw [hlive] at hclosed
    cases hclosed
  | stalled => exact ⟨h.sound_inFlight, nofun⟩

/-- A sound connection that is not shut is open and knows of no failure, or it is closed and knows
one, which may be an exchange in flight. -/
theorem is_of_sound (h : line.conn.Sound false) :
    line.Is false none false ∨ ∃ e, line.conn.isClosed = true ∧ line.conn.shut = false ∧
      line.conn.lastError = some e := by
  cases hclosed : line.conn.isClosed with
  | false =>
    obtain ⟨hnone, hinFlight⟩ := h.of_open hclosed
    rw [lastError, Option.or_eq_none_iff] at hnone
    exact .inl ⟨hclosed, hnone.1, hinFlight, h.shut_eq⟩
  | true =>
    obtain ⟨e, he⟩ := Option.isSome_iff_exists.mp (h.of_closed hclosed rfl)
    exact .inr ⟨e, rfl, h.shut_eq, he⟩

end Line

namespace Connection

variable {actions : List Action} {failure : Option Error}

/-- The verdict of an action is live. -/
theorem isLive_judged {entry : Entry} (h : entry.IsLive) (action : Action) :
    (judged entry action).IsLive := by
  unfold judged
  split
  · rename_i e _ hvalidate
    rintro _ ⟨⟩
    unfold Action.validate at hvalidate
    split at hvalidate
    · cases hvalidate
    · cases hvalidate
      exact Action.isClosed_rejection _ _
  · exact h

/-- The entries that an exchange makes of a read are live. -/
theorem isLive_of_answered {outcome : Reader.Outcome} (h : outcome.IsLive) {entries : List Entry}
    (hanswered : answered actions outcome = .ok entries) : ∀ entry ∈ entries, entry.IsLive := by
  cases outcome with
  | batch decoded =>
    rw [answered] at hanswered
    split at hanswered
    · cases hanswered
      intro entry hentry
      obtain ⟨i, hi, rfl⟩ := List.getElem_of_mem hentry
      rw [List.getElem_zipWith]
      exact isLive_judged (h _ (List.getElem_mem _)) _
    · cases hanswered
  | failed failure => cases hanswered
  | stalled => cases hanswered

/-- The failure that an exchange makes of a read is not that of a closed connection. -/
theorem isClosed_of_answered {outcome : Reader.Outcome} (h : outcome.IsLive) {e : Error}
    (hanswered : answered actions outcome = .error (.failed e)) : e.isClosed = false := by
  cases outcome with
  | batch decoded =>
    rw [answered] at hanswered
    split at hanswered
    · cases hanswered
    · cases hanswered
      rfl
  | failed failure =>
    cases hanswered
    exact h
  | stalled => cases hanswered

/-- An exchange on an open connection leaves it open, or halts. -/
theorem exchange_keepsOpen : (exchange actions).Meets (Line.Is false failure false)
    (fun entries line => (∀ entry ∈ entries, entry.IsLive) ∧ line.Is false failure false)
    (Line.HaltsWith failure) := by
  constructor
  · intro line after entries h hrun
    unfold exchange at hrun
    split at hrun
    · cases hrun
    · split at hrun
      · cases hrun
      · split at hrun
        · cases hrun
        · dsimp only at hrun
          split at hrun
          · rename_i hanswered
            cases hrun
            have hlive := isLive_of_answered (Reader.isLive_read _ _ _) hanswered
            exact ⟨hlive, rfl, h.failure_eq, rfl, h.shut_eq⟩
          · cases hrun
          · cases hrun
  · intro line after halt h hrun
    unfold exchange at hrun
    split at hrun
    · cases hrun
      exact ⟨rfl, .inl h⟩
    · split at hrun
      · rename_i hnone
        have hopen := h.closed_eq
        rw [isClosed, hnone] at hopen
        cases hopen
      · split at hrun
        · cases hrun
          exact ⟨rfl, .inr ⟨rfl, rfl, rfl, h.shut_eq⟩⟩
        · dsimp only at hrun
          split at hrun
          · cases hrun
          · rename_i hanswered
            cases hrun
            have hlive := isClosed_of_answered (Reader.isLive_read _ _ _) hanswered
            exact ⟨hlive, .inr ⟨rfl, rfl, rfl, h.shut_eq⟩⟩
          · cases hrun
            exact ⟨rfl, h.failure_eq, rfl, h.shut_eq⟩

/-- The error of a live entry is its result. -/
theorem isClosed_of_result {entry : Entry} {e : Error} (h : entry.IsLive)
    (hresult : entry.result = .error e) : e.isClosed = false := by
  unfold Entry.result at hresult
  split at hresult
  · rename_i cause hcause
    cases hresult
    exact h _ hcause
  · cases hresult

/-- Credentials are not refused because the connection is closed. -/
theorem isClosed_of_credentialsOf (answer : Except Error Credentials) :
    ∀ e, credentialsOf answer = .error e → e.isClosed = false := by
  intro e he
  cases answer with
  | ok credentials => cases he
  | error cause =>
    cases he
    rfl

/-- A result that is known already, or a failure, leaves the connection open. -/
theorem ofExcept_keepsOpen {α : Type} {result : Except Error α}
    (h : ∀ e, result = .error e → e.isClosed = false) :
    (Call.ofExcept result).Meets (Line.Is false failure false)
      (fun _ => Line.Is false failure false) (Line.HaltsWith failure) := by
  cases result with
  | ok a => exact .pure fun _ hline => hline
  | error e => exact .fail fun _ hline => ⟨h e rfl, .inl hline⟩

/-- The value of the first entry, or its error. -/
theorem first_keepsOpen {entries : List Entry} :
    (Call.ofExcept (Response.first entries)).Meets
      (fun line => (∀ entry ∈ entries, entry.IsLive) ∧ line.Is false failure false)
      (fun _ => Line.Is false failure false) (Line.HaltsWith failure) := by
  refine .assuming (fun _ h => h.1) fun hlive => ?_
  refine (ofExcept_keepsOpen fun e he => ?_).mono (fun _ h => h.2) (fun _ _ h => h) fun _ _ h => h
  cases entries with
  | nil =>
    cases he
    rfl
  | cons entry rest => exact isClosed_of_result (hlive entry List.mem_cons_self) he

/-- A preparing action leaves the connection open, or halts. -/
theorem roundTrip_keepsOpen (action : Action) :
    (roundTrip action).Meets (Line.Is false failure false)
      (fun _ => Line.Is false failure false) (Line.HaltsWith failure) :=
  exchange_keepsOpen.bind fun _ => first_keepsOpen

/-- The preparing actions leave the connection open, or halt. -/
theorem handshakeSteps_keepsOpen :
    handshakeSteps.Meets (Line.Is false failure false)
      (fun _ => Line.Is false failure false) (Line.HaltsWith failure) := by
  refine handshakeSteps_meets_of roundTrip_keepsOpen (fun version => ?_) fun answer =>
    ofExcept_keepsOpen (isClosed_of_credentialsOf answer)
  refine ofExcept_keepsOpen fun e he => ?_
  unfold checkVersion at he
  split at he
  · cases he
  · cases he
    rfl

/-- A handshake leaves the connection open, or without a stream. -/
theorem handshake_halts :
    handshake.Meets (Line.Is false failure false) (fun _ => Line.Is false failure false)
      (Line.HaltsClosed failure) := by
  refine handshakeSteps_keepsOpen.onFailure ?_ fun _ h => h
  rintro e line ⟨hlive, hline | hline⟩
  · exact ⟨hlive, failure, rfl, hline.failure_eq, hline.inFlight_eq, hline.shut_eq⟩
  · exact ⟨hlive, some e, rfl, hline.failure_eq, hline.inFlight_eq, hline.shut_eq⟩

/-- Dialing again gives the connection a stream, or leaves it without one. -/
theorem redial_halts :
    redial.Meets (Line.Is true failure false) (fun _ => Line.Is false failure false)
      (Line.HaltsClosed failure) := by
  constructor
  · intro line after _ h hrun
    unfold redial at hrun
    split at hrun
    · cases hrun
    · cases hrun
      exact ⟨rfl, h.failure_eq, h.inFlight_eq, h.shut_eq⟩
  · intro line after halt h hrun
    unfold redial at hrun
    split at hrun
    · cases hrun
      exact ⟨rfl, failure, h.closed_eq, h.failure_eq, h.inFlight_eq, h.shut_eq⟩
    · cases hrun

/-- A closed connection that is opened again forgets its failure. If it cannot be opened, it knows
why, and if this is given up, it still knows the failure before. -/
theorem reopen_settles {e : Error} (cause : Option Error) :
    reopen.Meets (Line.Is true (some e) false) (fun _ => Line.Is false none false)
      (Line.Settles cause) := by
  have hreset : (Call.update fun conn => { conn with reader := conn.reader.reset }).Meets
      (Line.Is true (some e) false) (fun _ => Line.Is true (some e) false)
      (Line.Settles cause) :=
    .update fun line h => ⟨h.closed_eq, h.failure_eq, h.inFlight_eq, h.shut_eq⟩
  have hopened : (Call.onFailure (do redial; handshake) fun e conn =>
      { conn with failure := some e }).Meets (Line.Is true (some e) false)
      (fun _ => Line.Is false (some e) false) (Line.Settles cause) := by
    refine Call.Meets.onFailure (redial_halts.bind fun _ => handshake_halts) ?_ ?_
    · rintro e line ⟨hlive, known, hline⟩
      have hafter : Line.Is true (some e) false
          ⟨{ line.conn with failure := some e }, line.net⟩ :=
        ⟨hline.closed_eq, rfl, hline.inFlight_eq, hline.shut_eq⟩
      refine ⟨hafter.sound_closed, ?_⟩
      rintro _ ⟨⟩ hclosed
      rw [hlive] at hclosed
      cases hclosed
    · exact fun line hline => ⟨hline.sound_inFlight, nofun⟩
  refine hreset.bind fun _ => hopened.bind fun _ => .update fun line h => ?_
  exact ⟨h.closed_eq, rfl, h.inFlight_eq, h.shut_eq⟩

/-- A sound connection that is not shut, with this last error. -/
def SoundWith (cause : Option Error) (line : Line) : Prop :=
  line.conn.Sound false ∧ line.conn.lastError = cause

/-- A call that fails without looking at the connection leaves it as it is. -/
theorem SoundWith.settles {line : Line} {cause : Option Error} (h : SoundWith cause line)
    {e : Error} (he : e.isClosed = false) : line.Settles cause (.failed e) := by
  refine ⟨h.1, ?_⟩
  rintro _ ⟨⟩ hclosed
  rw [he] at hclosed
  cases hclosed

/-- An exchange that was given up is turned into its failure. -/
theorem noteAbandoned_meets {cause : Option Error} :
    (Call.update noteAbandoned).Meets (SoundWith cause)
      (fun _ line => line.Is false none false ∨ ∃ e, cause = some e ∧ line.Is true (some e) false)
      (Line.Settles cause) := by
  refine .update fun line h => ?_
  obtain ⟨hsound, rfl⟩ := h
  rcases Line.is_of_sound hsound with hopen | ⟨e, hclosed, hshut, he⟩
  · left
    rw [noteAbandoned, hopen.inFlight_eq]
    exact ⟨hopen.closed_eq, hopen.failure_eq, hopen.inFlight_eq, hopen.shut_eq⟩
  · exact .inr ⟨e, he, by simpa using hclosed, by simpa using he, by simp, by simpa using hshut⟩

/-- A packet leaves the connection open, or settled. -/
theorem send_settles (actions : List Action) (cancelled : Bool) {cause : Option Error} :
    (send actions cancelled).Meets (SoundWith cause)
      (fun entries line => (∀ entry ∈ entries, entry.IsLive) ∧ line.Is false none false)
      (Line.Settles cause) := by
  have hexchange : (exchange actions).Meets (Line.Is false none false)
      (fun entries line => (∀ entry ∈ entries, entry.IsLive) ∧ line.Is false none false)
      (Line.Settles cause) :=
    exchange_keepsOpen.mono (fun _ h => h) (fun _ _ h => h) fun _ _ h => h.settles cause
  unfold send
  dsimp only
  split
  · exact .fail_bind fun line h => h.settles rfl
  · split
    · exact .fail_bind fun line h => h.settles rfl
    · refine noteAbandoned_meets.bind fun _ => Call.Meets.get.bind fun seen => ?_
      split
      · rename_i hclosed
        split
        · refine .fail_bind ?_
          rintro line ⟨rfl, hopen | ⟨e, rfl, hline⟩⟩
          · rw [hopen.closed_eq] at hclosed
            cases hclosed
          · refine ⟨hline.sound_closed, ?_⟩
            rintro _ ⟨⟩ -
            rw [closedError, hline.lastError_eq]
            exact ⟨rfl, rfl⟩
        · have hreopen : reopen.Meets (fun line => ∃ e, line.Is true (some e) false)
              (fun _ => Line.Is false none false) (Line.Settles cause) :=
            .exists_intro fun e => reopen_settles cause
          refine (hreopen.bind fun _ => hexchange).mono ?_ (fun _ _ h => h) fun _ _ h => h
          rintro line ⟨rfl, hopen | ⟨e, -, hline⟩⟩
          · rw [hopen.closed_eq] at hclosed
            cases hclosed
          · exact ⟨e, hline⟩
      · rename_i hopen
        refine hexchange.mono ?_ (fun _ _ h => h) fun _ _ h => h
        rintro line ⟨rfl, hline | ⟨e, -, hline⟩⟩
        · exact hline
        · exact absurd hline.closed_eq hopen

/-- What is made of an answer leaves the connection open. -/
theorem ofExcept_settles {α : Type} {result : Except Error α}
    (h : ∀ e, result = .error e → e.isClosed = false) (cause : Option Error) :
    (Call.ofExcept result).Meets (Line.Is false none false)
      (fun _ => Line.Is false none false) (Line.Settles cause) :=
  (ofExcept_keepsOpen h).mono (fun _ h => h) (fun _ _ h => h) fun _ _ h => h.settles cause

/-- An action leaves the connection open, or settled. -/
theorem exec_settles (action : Action) {cause : Option Error} :
    (exec action).Meets (SoundWith cause) (fun _ => Line.Is false none false)
      (Line.Settles cause) :=
  (send_settles [action] false).bind fun _ =>
    first_keepsOpen.mono (fun _ h => h) (fun _ _ h => h) fun _ _ h => h.settles cause

/-- The error of a list of live entries is that of one of them. -/
theorem isClosed_of_values {entries : List Entry} (h : ∀ entry ∈ entries, entry.IsLive) :
    ∀ e, Response.values entries = .error e → e.isClosed = false := by
  induction entries with
  | nil => nofun
  | cons entry rest ih =>
    intro e he
    rw [Response.values, List.mapM_cons] at he
    cases hresult : entry.result with
    | error cause =>
      rw [hresult] at he
      cases he
      exact isClosed_of_result (h entry List.mem_cons_self) hresult
    | ok value =>
      rw [hresult] at he
      cases hrest : Response.values rest with
      | error cause =>
        unfold Response.values at hrest
        rw [hrest] at he
        cases he
        exact ih (fun entry hentry => h entry (List.mem_cons_of_mem _ hentry)) _ hrest
      | ok values =>
        unfold Response.values at hrest
        rw [hrest] at he
        cases he

/-- The text of a value, or that it is none. -/
theorem isClosed_of_expectText (label : String) (value : Value) :
    ∀ e, expectText label value = .error e → e.isClosed = false := by
  intro e he
  unfold expectText at he
  split at he
  · cases he
  · cases he
    rfl

/-- The number of a value, or that it is none. -/
theorem isClosed_of_expectCount (label : String) (value : Value) :
    ∀ e, expectCount label value = .error e → e.isClosed = false := by
  intro e he
  unfold expectCount at he
  split at he
  · cases he
  · cases he
    rfl

/-- A request other than to close leaves a connection that is not shut open, or settled. -/
theorem answer_settles {request : Request} (h : request ≠ .close) {cause : Option Error} :
    (answer request).Meets (SoundWith cause) (fun _ => Line.Is false none false)
      (Line.Settles cause) := by
  have hsend (actions : List Action) (cancelled : Bool) :
      (send actions cancelled).Meets (SoundWith cause) (fun _ => Line.Is false none false)
        (Line.Settles cause) :=
    (send_settles actions cancelled).mono (fun _ h => h) (fun _ _ h => h.2) fun _ _ h => h
  have hlogin (username token : String) :
      (login username token).Meets (SoundWith cause) (fun _ => Line.Is false none false)
        (Line.Settles cause) :=
    (exec_settles _).bind fun _ => .pure fun _ h => h
  cases request with
  | exec action => exact (exec_settles action).map _
  | batch actions cancelled view =>
    cases view with
    | entries => exact (hsend actions cancelled).map _
    | response => exact (hsend actions cancelled).map _
    | values =>
      refine (send_settles actions cancelled).bind fun entries => ?_
      refine .assuming (fun _ h => h.1) fun hlive => ?_
      refine ((ofExcept_settles (isClosed_of_values hlive) cause).map _).mono ?_ ?_ ?_
      · exact fun _ h => h.2
      · exact fun _ _ h => h
      · exact fun _ _ h => h
  | command line => exact (exec_settles _).map _
  | heya => exact (exec_settles _).bind fun _ => .pure fun _ h => h
  | login username token => exact (hlogin _ _).bind fun _ => .pure fun _ h => h
  | loginWith asked =>
    have hask : (Call.ofExcept (credentialsOf asked)).Meets (SoundWith cause)
        (fun _ => SoundWith cause) (Line.Settles cause) := by
      cases hasked : credentialsOf asked with
      | ok credentials => exact .pure fun _ h => h
      | error e => exact .fail fun _ h => h.settles (isClosed_of_credentialsOf asked e hasked)
    have hloginWith : (loginWith asked).Meets (SoundWith cause)
        (fun _ => Line.Is false none false) (Line.Settles cause) :=
      hask.bind fun credentials => hlogin _ _
    exact hloginWith.bind fun _ => .pure fun _ h => h
  | use path =>
    have huse : (useNamespace path).Meets (SoundWith cause)
        (fun _ => Line.Is false none false) (Line.Settles cause) :=
      (exec_settles _).bind fun _ => .update fun line h =>
        ⟨h.closed_eq, h.failure_eq, h.inFlight_eq, h.shut_eq⟩
    exact huse.bind fun _ => .pure fun _ h => h
  | protocol =>
    exact ((exec_settles _).bind fun _ =>
      ofExcept_settles (isClosed_of_expectText _ _) cause).map _
  | version =>
    exact ((exec_settles _).bind fun _ =>
      ofExcept_settles (isClosed_of_expectText _ _) cause).map _
  | get key => exact (exec_settles _).map _
  | set key value => exact (exec_settles _).bind fun _ => .pure fun _ h => h
  | del keys =>
    exact ((exec_settles _).bind fun _ =>
      ofExcept_settles (isClosed_of_expectCount _ _) cause).map _
  | «exists» keys =>
    exact ((exec_settles _).bind fun _ =>
      ofExcept_settles (isClosed_of_expectCount _ _) cause).map _
  | close => exact absurd rfl h

end Connection

/-- On any network the call fails, and it leaves the network as it is. The connection knows what it
knew, and is shut. If the call is refused because the connection is closed, this is why. -/
def Call.Refused {α : Type} (conn : Connection) (call : Call α) : Prop :=
  ∃ e after, (∀ net, call ⟨conn, net⟩ = (.error (.failed e), ⟨after, net⟩)) ∧
    after.Sound true ∧ after.lastError = conn.lastError ∧
    (e.isClosed = true → e = conn.closedError)

namespace Call.Refused

variable {α β : Type} {conn : Connection} {call : Call α}

/-- Nothing comes after a call that is refused. -/
theorem bind (h : call.Refused conn) (next : α → Call β) : (call >>= next).Refused conn := by
  obtain ⟨e, after, hcall, hafter⟩ := h
  refine ⟨e, after, fun net => ?_, hafter⟩
  rw [bind_run, hcall]

/-- A result in another form. -/
theorem map (h : call.Refused conn) (f : α → β) : (f <$> call).Refused conn := by
  rw [← bind_pure_comp]
  exact h.bind _

end Call.Refused

namespace Connection

variable {conn : Connection} {shut : Bool}

/-- A connection that is shut and has no stream is sound. -/
theorem sound_of_shut (hshut : conn.shut = true) (hclosed : conn.isClosed = true) :
    conn.Sound true where
  shut_eq := hshut
  of_open hopen := by
    rw [hclosed] at hopen
    cases hopen
  of_closed _ := nofun
  of_shut _ := hclosed

/-- A closed connection that may not be opened again refuses every packet that is not empty, and
says why it is closed. -/
theorem send_of_unusable {actions : List Action} (hclosed : conn.isClosed = true)
    (hunusable : (conn.shut || !conn.config.autoReconnect) = true) (hactions : actions ≠ [])
    (net : Network) :
    send actions false ⟨conn, net⟩ =
      (.error (.failed conn.closedError), ⟨conn.noteAbandoned, net⟩) := by
  have hempty : actions.isEmpty = false := by simpa using hactions
  have herror : conn.noteAbandoned.closedError = conn.closedError :=
    congrArg Error.closedAfter (lastError_noteAbandoned conn)
  rw [← isClosed_noteAbandoned] at hclosed
  rw [← shut_noteAbandoned, ← config_noteAbandoned] at hunusable
  unfold send
  simp only [hempty, Bool.false_eq_true, if_false, Call.bind_run]
  change (if conn.noteAbandoned.isClosed = true then
    (if (conn.noteAbandoned.shut || !conn.noteAbandoned.config.autoReconnect) = true then
      (do Call.fail conn.noteAbandoned.closedError; reopen; exchange actions)
    else (do reopen; exchange actions))
    else exchange actions : Call (List Entry)) ⟨conn.noteAbandoned, net⟩ = _
  rw [if_pos hclosed, if_pos hunusable, herror]
  rfl

/-- A connection that is shut refuses every packet. -/
theorem send_refused (h : conn.Sound true) (actions : List Action) (cancelled : Bool) :
    (send actions cancelled).Refused conn := by
  cases cancelled with
  | true => exact ⟨.cancelled, conn, fun _ => rfl, h, rfl, nofun⟩
  | false =>
    cases actions with
    | nil => exact ⟨.emptyPacket, conn, fun _ => rfl, h, rfl, nofun⟩
    | cons action rest =>
      have hclosed := h.of_shut rfl
      have hunusable : (conn.shut || !conn.config.autoReconnect) = true := by simp [h.shut_eq]
      have hafter : conn.noteAbandoned.Sound true :=
        sound_of_shut (by simpa using h.shut_eq) (by simpa using hclosed)
      exact ⟨conn.closedError, conn.noteAbandoned,
        send_of_unusable hclosed hunusable (List.cons_ne_nil _ _), hafter,
        lastError_noteAbandoned conn, fun _ => rfl⟩

/-- A connection that is shut refuses every action. -/
theorem exec_refused (h : conn.Sound true) (action : Action) : (exec action).Refused conn :=
  (send_refused h [action] false).bind _

/-- A connection that is shut refuses every request but to close. -/
theorem answer_refused (h : conn.Sound true) {request : Request} (hrequest : request ≠ .close) :
    (answer request).Refused conn := by
  have hlogin (username token : String) : (login username token).Refused conn :=
    (exec_refused h _).bind _
  cases request with
  | exec action => exact (exec_refused h action).map _
  | batch actions cancelled view =>
    cases view with
    | entries => exact (send_refused h actions cancelled).map _
    | response => exact (send_refused h actions cancelled).map _
    | values => exact (send_refused h actions cancelled).bind _
  | command line => exact (exec_refused h _).map _
  | heya => exact (exec_refused h _).bind _
  | login username token => exact (hlogin _ _).bind _
  | loginWith asked =>
    have hloginWith : (loginWith asked).Refused conn := by
      unfold loginWith
      cases hasked : credentialsOf asked with
      | ok credentials => exact hlogin _ _
      | error e =>
        refine ⟨e, conn, fun _ => rfl, h, rfl, fun hclosed => ?_⟩
        rw [isClosed_of_credentialsOf asked e hasked] at hclosed
        cases hclosed
    exact hloginWith.bind _
  | use path => exact ((exec_refused h _).bind _).bind _
  | protocol => exact ((exec_refused h _).bind _).map _
  | version => exact ((exec_refused h _).bind _).map _
  | get key => exact (exec_refused h _).map _
  | set key value => exact (exec_refused h _).bind _
  | del keys => exact ((exec_refused h _).bind _).map _
  | «exists» keys => exact ((exec_refused h _).bind _).map _
  | close => exact absurd rfl hrequest

/-- Whatever is asked of a connection that is shut, it stays so, and the answer has nothing to do
with the network: nothing is dialed, written or read. -/
theorem answer_of_shut (h : conn.Sound true) (request : Request) :
    ∃ result after, after.Sound true ∧
      ∀ net, answer request ⟨conn, net⟩ = (result, ⟨after, net⟩) := by
  by_cases hclose : request = .close
  · subst hclose
    exact ⟨.ok .done, conn.close, sound_of_shut rfl rfl, fun _ => rfl⟩
  · obtain ⟨e, after, hcall, hafter, -⟩ := answer_refused h hclose
    exact ⟨.error (.failed e), after, hafter, hcall⟩

/-- A sound connection that refuses a request because it is closed says why, and knows it still. -/
theorem refusal_of_sound {line left : Line} (h : line.conn.Sound shut) {request : Request}
    {e : Error} (hanswer : answer request line = (.error (.failed e), left))
    (hclosed : e.isClosed = true) :
    e = .closedAfter line.conn.lastError ∧ left.conn.lastError = line.conn.lastError := by
  have hrequest : request ≠ .close := by
    rintro rfl
    cases hanswer
  cases shut with
  | false =>
    have hbefore : SoundWith line.conn.lastError line := ⟨h, rfl⟩
    exact ((answer_settles hrequest).halt hbefore hanswer).2 e rfl hclosed
  | true =>
    obtain ⟨_, after, hcall, -, hlast, hcause⟩ := answer_refused h hrequest
    have hsame := (hcall line.net).symm.trans hanswer
    cases hsame
    exact ⟨hcause hclosed, hlast⟩

end Connection

end StoreClient
