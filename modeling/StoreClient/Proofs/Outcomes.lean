import StoreClient.Proofs.Lifetimes
import StoreClient.Proofs.Drafts

/-!
# The outcome of an exchange

An exchange succeeds exactly if the server answers with a batch that has one entry for each action.
`Line.Brings` is what the reader makes of the answer, and `Connection.Concludes` what the exchange
makes of that: each way to fail ends in one closed state. A connection that is not set to be
opened again stays in it, and keeps the error (`Lost`).
-/

namespace StoreClient

namespace Reader

/-- A reader that returned a batch scans the next one from its start. -/
theorem scan_of_read {reader : Reader} {ended : Bool} {arrivals : List Arrival}
    {entries : List Entry} (h : (reader.read ended arrivals).outcome = .batch entries) :
    (reader.read ended arrivals).reader.scan = .start := by
  fun_induction read reader ended arrivals with
  | case1 arrivals reader entries after hpoll =>
    cases polls_of_poll_eq hpoll
    rfl
  | case2 arrivals reader failure after hpoll => cases h
  | case3 reader after hpoll hended => cases h
  | case4 reader after hpoll hended => cases h
  | case5 reader after hpoll rest => cases h
  | case6 reader after hpoll kind rest => cases h
  | case7 reader after hpoll chunk rest hne ih => exact ih h

/-- A read of a stream that has ended does not wait for more. -/
theorem read_ended_ne_stalled (reader : Reader) (arrivals : List Arrival) :
    (reader.read true arrivals).outcome ≠ .stalled := by
  generalize hended : true = ended
  fun_induction read reader ended arrivals with
  | case4 reader after hpoll hopen => exact absurd hended.symm hopen
  | case7 reader after hpoll chunk rest hne ih => exact ih
  | _ =>
    intro h
    cases h

end Reader

namespace Line

/-- The server answers the next batch. A fresh reader that may hold as much as that of the
connection comes to this outcome with it, however it is cut into pieces. -/
def Brings (line : Line) (outcome : Reader.Outcome) : Prop :=
  ∃ stream written, line.conn.stream = some stream ∧ stream.write = .ok written ∧
    ((Reader.start line.conn.reader.limit).read written.ended written.inbound).outcome = outcome

/-- The answer has one outcome. -/
theorem Brings.unique {line : Line} {outcome other : Reader.Outcome} (h : line.Brings outcome)
    (hother : line.Brings other) : outcome = other := by
  obtain ⟨stream, written, hstream, hwrite, houtcome⟩ := h
  obtain ⟨_, _, hstream', hwrite', hother⟩ := hother
  cases hstream.symm.trans hstream'
  cases hwrite.symm.trans hwrite'
  exact houtcome.symm.trans hother

/-- Only an answer that has not ended yet keeps its reader waiting. -/
theorem Brings.ended_eq_false {line : Line} {stream written : Stream} (h : line.Brings .stalled)
    (hstream : line.conn.stream = some stream) (hwrite : stream.write = .ok written) :
    written.ended = false := by
  obtain ⟨_, _, hstream', hwrite', houtcome⟩ := h
  cases hstream.symm.trans hstream'
  cases hwrite.symm.trans hwrite'
  cases hended : written.ended with
  | false => rfl
  | true =>
    rw [hended] at houtcome
    exact absurd houtcome (Reader.read_ended_ne_stalled _ _)

end Line

namespace Connection

/-- The error of an answer that does not have one entry for each action. -/
def miscount (actions : List Action) (found : List Entry) : Error :=
  .protocol (.entryCountMismatch actions.length found.length)

/-- What a packet comes to that is sent on an open connection: its result, and the line that is left.
Every failure breaks the connection. -/
inductive Concludes (actions : List Action) (line : Line) :
    Except Halt (List Entry) → Line → Prop where
  | answered {found : List Entry} {after : Line} : line.Brings (.batch found) →
      found.length = actions.length → after.conn.isClosed = false → after.conn.lastError = none →
      Concludes actions line (.ok (found.zipWith judged actions)) after
  | miscounted {found : List Entry} {net : Network} : line.Brings (.batch found) →
      found.length ≠ actions.length →
      Concludes actions line (.error (.failed (miscount actions found)))
        ⟨line.conn.broken (miscount actions found), net⟩
  | unread {failure : FailedRead} {net : Network} : line.Brings (.failed failure) →
      Concludes actions line (.error (.failed failure.error))
        ⟨line.conn.broken failure.error, net⟩
  | unwritten {e : Error} {net : Network} : (∀ outcome, ¬ line.Brings outcome) →
      Concludes actions line (.error (.failed e)) ⟨line.conn.broken e, net⟩
  | stalled {after : Line} : line.Brings .stalled →
      Concludes actions line (.error .stalled) after

namespace Concludes

variable {actions : List Action} {line after : Line} {result : Except Halt (List Entry)}

/-- The packet succeeds exactly if the answer is a batch with one entry for each action. -/
theorem eq_ok_iff (h : Concludes actions line result after) (entries : List Entry) :
    result = .ok entries ↔ ∃ found, line.Brings (.batch found) ∧
      found.length = actions.length ∧ entries = found.zipWith judged actions := by
  constructor
  · rintro rfl
    cases h with
    | answered hbrings hcount => exact ⟨_, hbrings, hcount, rfl⟩
  · rintro ⟨found, hfound, hlength, rfl⟩
    cases h with
    | answered hbrings => cases hbrings.unique hfound; rfl
    | miscounted hbrings hcount =>
      cases hbrings.unique hfound
      exact absurd hlength hcount
    | unread hbrings => cases hbrings.unique hfound
    | unwritten hnothing => exact absurd hfound (hnothing _)
    | stalled hbrings => cases hbrings.unique hfound

/-- A packet that succeeds leaves the connection open, and without an error. -/
theorem open_of_ok {entries : List Entry} (h : Concludes actions line (.ok entries) after) :
    after.conn.isClosed = false ∧ after.conn.lastError = none := by
  cases h with
  | answered _ _ hopen hnone => exact ⟨hopen, hnone⟩

/-- A packet that fails breaks the connection. -/
theorem broken_of_failed {e : Error} (h : Concludes actions line (.error (.failed e)) after) :
    after.conn = line.conn.broken e := by
  cases h <;> rfl

/-- The packet waits exactly if the answer keeps its reader waiting. -/
theorem eq_stalled_iff (h : Concludes actions line result after) :
    result = .error .stalled ↔ line.Brings .stalled := by
  constructor
  · rintro rfl
    cases h with
    | stalled hbrings => exact hbrings
  · intro hstalled
    cases h with
    | answered hbrings => cases hbrings.unique hstalled
    | miscounted hbrings => cases hbrings.unique hstalled
    | unread hbrings => cases hbrings.unique hstalled
    | unwritten hnothing => exact absurd hstalled (hnothing _)
    | stalled => rfl

/-- An answer with too few or too many entries fails the packet. -/
theorem eq_miscount {found : List Entry} (h : Concludes actions line result after)
    (hfound : line.Brings (.batch found)) (hcount : found.length ≠ actions.length) :
    result = .error (.failed (miscount actions found)) := by
  cases h with
  | answered hbrings hlength =>
    cases hbrings.unique hfound
    exact absurd hlength hcount
  | miscounted hbrings => cases hbrings.unique hfound; rfl
  | unread hbrings => cases hbrings.unique hfound
  | unwritten hnothing => exact absurd hfound (hnothing _)
  | stalled hbrings => cases hbrings.unique hfound

end Concludes

/-- A failed connection is the same whatever its stream was and whatever its reader had read. -/
theorem broken_read (conn : Connection) (stream : Option Stream) (ended : Bool)
    (arrivals : List Arrival) (e : Error) :
    broken e { conn with stream, reader := (conn.reader.read ended arrivals).reader } =
      conn.broken e := by
  unfold broken Reader.reset
  rw [Reader.limit_read]

/-- An exchange on an open connection, which knows of no failure and has read nothing yet. -/
theorem exchange_concludes {line : Line} {stream : Stream} {actions : List Action}
    (hstream : line.conn.stream = some stream) (hfailure : line.conn.failure = none)
    (hreader : line.conn.reader = .start line.conn.reader.limit)
    (hsendable : Packet.Sendable actions) :
    Concludes actions line (exchange actions line).1 (exchange actions line).2 := by
  obtain ⟨batch, hbatch⟩ := hsendable.exists_encode
  rw [exchange_eq, hbatch]
  simp only [transmit, hstream]
  cases hwrite : stream.write with
  | error kind =>
    refine .unwritten ?_
    rintro outcome ⟨_, written, hstream', hwrite', -⟩
    cases hstream.symm.trans hstream'
    rw [hwrite] at hwrite'
    cases hwrite'
  | ok written =>
    have hbrings {outcome : Reader.Outcome}
        (h : (line.conn.reader.read written.ended written.inbound).outcome = outcome) :
        line.Brings outcome := ⟨stream, written, hstream, hwrite, hreader ▸ h⟩
    dsimp only
    cases houtcome : (line.conn.reader.read written.ended written.inbound).outcome with
    | batch found =>
      by_cases hcount : found.length = actions.length
      · simp only [answered, if_pos hcount]
        refine .answered (hbrings houtcome) hcount rfl ?_
        simp [lastError, hfailure]
      · simp only [answered, if_neg hcount, broken_read]
        exact .miscounted (hbrings houtcome) hcount
    | failed failure =>
      simp only [answered, broken_read]
      exact .unread (hbrings houtcome)
    | stalled => exact .stalled (hbrings houtcome)

end Connection

/-- If the connection has a stream, it scans the next answer from its start. -/
def Line.Rested (line : Line) : Prop := line.conn.stream = none ∨ line.conn.reader.scan = .start

namespace Connection

variable {line after : Line} {operation : Operation} {operations : List Operation}

/-- An exchange leaves the connection rested. -/
theorem exchange_preserves_rested (actions : List Action) :
    (exchange actions).Preserves Line.Rested := by
  refine .of_run fun line result after hrested hrun => ?_
  have hexchanged := exchange_exchanged actions line
  rw [hrun] at hexchanged
  cases hexchanged with
  | unsent e => exact hrested
  | unwritten e _ _ _ _ hnone => exact .inl hnone
  | unanswered _ _ _ _ hnone _ => exact .inl hnone
  | @answered stream left batch conn ended taken entries _ _ _ hreader _ _ hanswered =>
    right
    change conn.reader.scan = .start
    rw [hreader]
    cases houtcome : (line.conn.reader.read ended taken).outcome with
    | batch found => exact Reader.scan_of_read houtcome
    | failed failure => simp [houtcome, answered] at hanswered
    | stalled => simp [houtcome, answered] at hanswered

/-- A handshake leaves the connection rested. -/
theorem handshake_preserves_rested : handshake.Preserves Line.Rested :=
  handshake_preserves_of exchange_preserves_rested fun _ _ => .inl rfl

/-- A connection that is opened again is rested, or closed. -/
theorem reopen_preserves_rested : reopen.Preserves Line.Rested := by
  have hredial : redial.Meets (fun line => line.conn.reader.scan = .start)
      (fun _ => Line.Rested) fun _ => Line.Rested := by
    constructor
    · intro line after _ h hrun
      unfold redial at hrun
      split at hrun
      · cases hrun
      · cases hrun
        exact .inr h
    · intro line after _ h hrun
      unfold redial at hrun
      split at hrun
      · cases hrun
        exact .inr h
      · cases hrun
  have hopened : (Call.onFailure (do redial; handshake) fun e conn =>
      { conn with failure := some e }).Meets (fun line => line.conn.reader.scan = .start)
      (fun _ => Line.Rested) fun _ => Line.Rested :=
    (hredial.bind fun _ => handshake_preserves_rested).onFailure (fun _ _ h => h) fun _ h => h
  have hreset : (Call.update fun conn => { conn with reader := conn.reader.reset }).Meets
      Line.Rested (fun _ line => line.conn.reader.scan = .start) fun _ => Line.Rested :=
    .update fun _ _ => rfl
  exact Call.Meets.bind hreset fun _ => hopened.bind fun _ => .update fun _ h => h

/-- Sending a packet leaves the connection rested. -/
theorem send_preserves_rested (actions : List Action) (cancelled : Bool) :
    (send actions cancelled).Preserves Line.Rested := by
  have hnote : (Call.update noteAbandoned).Preserves Line.Rested := by
    refine .update fun line h => ?_
    unfold noteAbandoned
    split
    · exact h
    · exact h
  have hreopen : reopen.Meets (fun line => line.Rested ∧ line.conn.stream = none)
      (fun _ => Line.Rested) fun _ => Line.Rested :=
    reopen_preserves_rested.mono (fun _ h => h.1) (fun _ _ h => h) fun _ _ h => h
  exact send_preserves_of cancelled hnote hreopen (exchange_preserves_rested actions)

section Runs

variable {property : Line → Prop}
  (hsend : ∀ actions cancelled, (send actions cancelled).Preserves property)
  (hclose : ∀ line, property line → property ⟨line.conn.close, line.net⟩)
  (hselect : ∀ line path, property line →
    property ⟨{ line.conn with config := line.conn.config.selecting (some path) }, line.net⟩)

include hsend hclose hselect

/-- An answer keeps what a packet keeps, if closing and selecting keep it. -/
theorem answer_preserves_of (request : Request) : (answer request).Preserves property := by
  by_cases huse : ∃ path, request = .use path
  · obtain ⟨path, rfl⟩ := huse
    have hexec : (exec (.use path)).Preserves property :=
      (hsend [.use path] false).bind fun _ => .ofExcept _
    exact answer_use_meets hexec fun line h => hselect line path h
  · exact answer_meets_of_send (fun path h => huse ⟨path, h⟩) (fun _ h => h) hclose hsend

/-- A run keeps it too, if it is kept when a call is dropped. -/
theorem holds_of_reaches
    (hdrop : ∀ before after : Line, property before → before.Drops after →
      property after)
    (h : line.Reaches operations after) (hline : property line) : property after := by
  induction h with
  | start => exact hline
  | @step _ _ middle _ _ hoperates ih =>
    cases hoperates with
    | dropped hdrops => exact hdrop _ _ ih hdrops
    | asked request =>
      have hanswer := answer_preserves_of hsend hclose hselect request
      cases hrun : answer request middle with
      | mk result left =>
        cases result with
        | ok a => exact hanswer.ok ih hrun
        | error halt => exact hanswer.halt ih hrun

end Runs

/-- Whatever happened to a connection that was opened, it is rested. -/
theorem rested_of_reaches {config : Config} {net opened : Network} {conn : Connection}
    (hopen : establish config net = (.ok conn, opened))
    (hrun : Line.Reaches ⟨conn, opened⟩ operations line) : line.Rested := by
  have hstart : Line.Rested ⟨conn, opened⟩ := by
    unfold establish at hopen
    split at hopen
    · cases hopen
    · split at hopen
      · rename_i left hhandshake
        cases hopen
        exact handshake_preserves_rested.ok (.inr rfl) hhandshake
      · cases hopen
  refine holds_of_reaches send_preserves_rested (fun _ _ => .inl rfl) (fun _ _ h => h) ?_ hrun
    hstart
  exact fun before after _ hdrops => .inl hdrops.stream_eq

/-- The connection was closed by this failure, and is not opened again. -/
structure Lost (e : Error) (conn : Connection) : Prop where
  stream_eq : conn.stream = none
  failure_eq : conn.failure = some e
  inFlight_eq : conn.inFlight = false
  autoReconnect_eq : conn.config.autoReconnect = false

section Lost

variable {e : Error} {actions : List Action}

/-- A connection that is lost refuses every packet that is not empty, and stays as it is. -/
theorem Lost.send_eq (h : line.conn.Lost e) (hactions : actions ≠ []) :
    send actions false line = (.error (.failed (.closedAfter (some e))), line) := by
  have hclosed : line.conn.isClosed = true := by simp [isClosed, h.stream_eq]
  have hunusable : (line.conn.shut || !line.conn.config.autoReconnect) = true := by
    simp [h.autoReconnect_eq]
  have herror : line.conn.closedError = .closedAfter (some e) := by
    simp [closedError, lastError, h.failure_eq]
  rw [send_of_unusable hclosed hunusable hactions, noteAbandoned_of_inFlight _ h.inFlight_eq,
    herror]

/-- Whatever happens to a connection that is lost, it stays lost, and nothing happens on the
network. -/
theorem Lost.of_reaches {left : Line} (h : line.conn.Lost e) (hrun : line.Reaches operations left) :
    left.conn.Lost e ∧ left.net = line.net := by
  have hsend (actions : List Action) (cancelled : Bool) :
      (send actions cancelled).Preserves fun after => after.conn.Lost e ∧ after.net = line.net := by
    refine .of_run fun before result after hbefore hsent => ?_
    have hsame : after = before := by
      cases cancelled with
      | true => cases hsent; rfl
      | false =>
        cases actions with
        | nil => cases hsent; rfl
        | cons action rest =>
          rw [hbefore.1.send_eq (List.cons_ne_nil _ _)] at hsent
          cases hsent
          rfl
    rw [hsame]
    exact hbefore
  refine holds_of_reaches hsend ?_ ?_ ?_ hrun ⟨h, rfl⟩
  · exact fun after hafter => ⟨⟨rfl, hafter.1.failure_eq, hafter.1.inFlight_eq,
      hafter.1.autoReconnect_eq⟩, hafter.2⟩
  · exact fun after path hafter => ⟨⟨hafter.1.stream_eq, hafter.1.failure_eq,
      hafter.1.inFlight_eq, hafter.1.autoReconnect_eq⟩, hafter.2⟩
  · rintro before after ⟨hbefore, -⟩ hdrops
    rcases hdrops.usable with hopen | ⟨-, -, hreconnects⟩
    · simp [isClosed, hbefore.stream_eq] at hopen
    · simp [hbefore.autoReconnect_eq] at hreconnects

end Lost

/-- An open connection that holds no bytes of an earlier answer has a fresh reader, whatever happened
to it before. -/
theorem reader_of_reaches {config : Config} {net opened : Network} {conn : Connection}
    (hopen : establish config net = (.ok conn, opened))
    (hrun : Line.Reaches ⟨conn, opened⟩ operations line) (hline : line.conn.isClosed = false)
    (hbuffer : line.conn.reader.buffer = []) :
    line.conn.reader = .start line.conn.reader.limit := by
  obtain ⟨stream, hstream⟩ := exists_stream hline
  have hscan : line.conn.reader.scan = .start := by
    rcases rested_of_reaches hopen hrun with hclosed | hscan
    · simp [hstream] at hclosed
    · exact hscan
  rw [Reader.start, ← hbuffer, ← hscan]

/-- A packet that can be sent, on an open connection that holds no bytes of an earlier answer. -/
theorem sendPacket_concludes {config : Config} {net opened : Network} {conn : Connection}
    {packet : Packet} {flags : CancellationFlags}
    (hopen : establish config net = (.ok conn, opened))
    (hrun : Line.Reaches ⟨conn, opened⟩ operations line) (hline : line.conn.isClosed = false)
    (hbuffer : line.conn.reader.buffer = []) (hcancelled : packet.isCancelled flags = false)
    (hactions : packet.actions ≠ []) (hsendable : Packet.Sendable packet.actions) :
    Concludes packet.actions line (sendPacket packet flags line).1
      (sendPacket packet flags line).2 := by
  obtain ⟨stream, hstream⟩ := exists_stream hline
  obtain ⟨shut, hsound, -⟩ := sound_of_reaches hrun (sound_of_establish hopen)
  obtain ⟨hnone, hinFlight⟩ := hsound.of_open hline
  have hfailure : line.conn.failure = none := (Option.or_eq_none_iff.mp hnone).1
  have hreader : line.conn.reader = .start line.conn.reader.limit :=
    reader_of_reaches hopen hrun hline hbuffer
  rw [sendPacket, hcancelled, send_of_open hline hinFlight hactions]
  exact exchange_concludes hstream hfailure hreader hsendable

/-- The outcome of one exchange, on an open connection that holds no bytes of an earlier answer, for
a packet that has actions, all of which can be sent, and is not cancelled. It succeeds exactly if
the reader finds a batch with one entry for each action in the bytes that the server sends, and then
the connection stays open, whatever the entries say. If it fails, the connection is closed, the
reader holds no bytes, and the last error is the error of the packet; a connection that is not set
to be opened again refuses every packet from then on because of this error. Apart from this it may
only wait for a server that has not ended its answer. A batch with too few or too many entries is
such a failure. -/
theorem packet_succeeds_iff_answered {config : Config} {net opened : Network} {conn : Connection}
    {packet : Packet} {flags : CancellationFlags} {result : Except Halt (List Entry)}
    (hopen : establish config net = (.ok conn, opened))
    (hrun : Line.Reaches ⟨conn, opened⟩ operations line) (hline : line.conn.isClosed = false)
    (hbuffer : line.conn.reader.buffer = []) (hcancelled : packet.isCancelled flags = false)
    (hactions : packet.actions ≠ []) (hsendable : Packet.Sendable packet.actions)
    (hsend : sendPacket packet flags line = (result, after)) :
    (∀ entries, result = .ok entries ↔ ∃ found, line.Brings (.batch found) ∧
      found.length = packet.actions.length ∧ entries = found.zipWith judged packet.actions) ∧
    (∀ entries, result = .ok entries →
      after.conn.isClosed = false ∧ after.conn.lastError = none) ∧
    (∀ e, result = .error (.failed e) →
      after.conn.isClosed = true ∧ after.conn.reader.buffer = [] ∧
      after.conn.lastError = some e ∧
      (line.conn.config.autoReconnect = false →
        ∀ later left more (flags : CancellationFlags), after.Reaches later left →
          more.isCancelled flags = false → more.actions ≠ [] →
          sendPacket more flags left = (.error (.failed (.closedAfter (some e))), left))) ∧
    (result = .error .stalled ↔ line.Brings .stalled) ∧
    (∀ stream written, line.Brings .stalled → line.conn.stream = some stream →
      stream.write = .ok written → written.ended = false) ∧
    ∀ found, line.Brings (.batch found) → found.length ≠ packet.actions.length →
      result = .error (.failed (miscount packet.actions found)) := by
  have hconcludes := sendPacket_concludes hopen hrun hline hbuffer hcancelled hactions hsendable
  rw [hsend] at hconcludes
  refine ⟨hconcludes.eq_ok_iff, ?_, ?_, hconcludes.eq_stalled_iff, ?_, ?_⟩
  · rintro entries rfl
    exact hconcludes.open_of_ok
  · rintro e rfl
    have hbroken : after.conn = line.conn.broken e := hconcludes.broken_of_failed
    rw [hbroken]
    refine ⟨rfl, rfl, rfl, fun hreconnect later left more flags hlater hwanted hmore => ?_⟩
    have hlost : after.conn.Lost e := by
      rw [hbroken]
      exact ⟨rfl, rfl, rfl, hreconnect⟩
    rw [sendPacket, hwanted]
    exact (hlost.of_reaches hlater).1.send_eq hmore
  · exact fun stream written hstalled hstream hwrite => hstalled.ended_eq_false hstream hwrite
  · exact fun found hfound hcount => hconcludes.eq_miscount hfound hcount

/-- A server that accepts the version of the protocol, and answers the next batch with two entries,
in three pieces. -/
def generousServer : Network :=
  .ofDials [.accepted [.sending (Utf8.encode "*1\n+11\nSkyhash-1.1\n") false,
    ⟨[.bytes [42, 50, 10, 33], .bytes [49, 10, 48, 10, 33, 49], .bytes [10, 48, 10]], false, none⟩]]

/-- One action is answered with two entries. They are not paired with the action, and every later
packet is refused because of them. -/
theorem packet_succeeds_iff_answered_generous :
    let config := Config.ofAddress "127.0.0.1:2003"
    let packet := Packet.single (.heya none)
    let e : Error := .protocol (.entryCountMismatch 1 2)
    ∃ conn opened after, establish config generousServer = (.ok conn, opened) ∧
      sendPacket packet .empty ⟨conn, opened⟩ = (.error (.failed e), after) ∧
      after.conn.isClosed = true ∧ after.conn.reader.buffer = [] ∧
      after.conn.lastError = some e ∧
      ∀ later left more (flags : CancellationFlags), after.Reaches later left →
        more.isCancelled flags = false → more.actions ≠ [] →
        sendPacket more flags left = (.error (.failed (.closedAfter (some e))), left) := by
  intro config packet e
  have hfacts : (match establish config generousServer with
      | (.ok conn, opened) =>
        (conn.isClosed, conn.reader.buffer, conn.config.autoReconnect,
          (sendPacket packet .empty ⟨conn, opened⟩).1.map fun _ => ())
      | (.error _, _) => (true, [], true, .ok ())) =
        (false, [], false, .error (.failed e)) := by
    decide +kernel
  cases hopen : establish config generousServer with
  | mk result opened =>
    rw [hopen] at hfacts
    cases result with
    | error halt => cases hfacts
    | ok conn =>
      simp only [Prod.mk.injEq] at hfacts
      obtain ⟨hline, hbuffer, hreconnect, hresult⟩ := hfacts
      cases hsend : sendPacket packet .empty ⟨conn, opened⟩ with
      | mk result after =>
        rw [hsend] at hresult
        have hfailed : result = .error (.failed e) := by
          cases result with
          | error halt => cases hresult; rfl
          | ok entries => cases hresult
        have hsendable : Packet.Sendable packet.actions :=
          List.forall_mem_singleton.mpr ⟨_, by rfl⟩
        obtain ⟨-, -, hfailure, -⟩ := packet_succeeds_iff_answered hopen .start hline hbuffer
          rfl (List.cons_ne_nil _ _) hsendable hsend
        obtain ⟨hclosed, hempty, hlast, hlater⟩ := hfailure e hfailed
        exact ⟨conn, opened, after, rfl, hfailed ▸ hsend, hclosed, hempty, hlast,
          hlater hreconnect⟩

end Connection

end StoreClient
