import StoreClient.Proofs.Outcomes
import StoreClient.Proofs.Pipelining

/-!
# Requests are faithful to their replies

Most requests run one action and are answered from its entry. The entry is judged by the action, and
what the action accepts is read once more in the form that the owner wants. This file shows that the
second reading never fails, and that a request succeeds for no other value than those that it asks
for. So a refusal of the server is never taken for a result. `Request.Grants` says which values a
request asks for, `Request.Faithful` what comes of every entry, and
`Connection.answer_is_faithful` starts from the bytes that the server sends.
-/

namespace StoreClient

namespace Request

/-- The action of a request that runs one and has its own idea of the answer. -/
def action? : Request → Option Action
  | heya => some (.heya none)
  | login username token => some (.login username token)
  | use path => some (.use path)
  | protocol => some (.sysInfo .protocol)
  | version => some (.sysInfo .version)
  | get key => some (.get key)
  | set key value => some (.set key value)
  | del keys => some (.del keys)
  | «exists» keys => some (.exists keys)
  | exec _ | batch .. | command _ | loginWith _ | close => none

/-- A value that the request asks for, and the answer that it becomes. -/
inductive Grants : Request → Value → Answer → Prop where
  | alive : Grants heya (.string "HEY!") .done
  | loggedIn (username token : String) : Grants (login username token) (.code .okay) .done
  | selected (path : String) : Grants (use path) (.code .okay) .done
  | stored (key : String) (value : Value) : Grants (set key value) (.code .okay) .done
  | protocol (text : String) : Grants protocol (.string text) (.text text)
  | version (text : String) : Grants version (.string text) (.text text)
  | text (key text : String) : Grants (get key) (.string text) (.value (.string text))
  | binary (key : String) (bytes : Bytes) :
    Grants (get key) (.binary bytes) (.value (.binary bytes))
  | deleted (keys : List String) (n : UInt64) : Grants (del keys) (.unsigned n) (.count n)
  | existing (keys : List String) (n : UInt64) : Grants («exists» keys) (.unsigned n) (.count n)

/-- The result of a request is faithful to the entry of its action. What was wrong with the entry
when it was decoded comes before anything that its value says. -/
structure Faithful (request : Request) (action : Action) (entry : Entry)
    (result : Except Halt Answer) : Prop where
  /-- The request succeeds exactly with what it asks for. -/
  eq_ok_iff : ∀ a, result = .ok a ↔ entry.error = none ∧ request.Grants entry.value a
  /-- An entry that was decoded with an error gives this error. -/
  of_error : ∀ e, entry.error = some e → result = .error (.failed e)
  /-- A code other than okay is an error of the server with this code. -/
  of_code : ∀ c, entry.error = none → entry.value = .code c → c ≠ .okay →
    ∃ e, result = .error (.failed e) ∧ e = .server (.code c) ∧ e.code? = some c ∧
      (e.isNotFound = true ↔ c = .nil)
  /-- A text in place of a code is an error of the server with this text. -/
  of_errorText : ∀ text, entry.error = none → entry.value = .errorText text →
    result = .error (.failed (.server (.text text)))
  /-- Any other value is not expected. -/
  of_other : entry.error = none → (∀ a, ¬ request.Grants entry.value a) →
    (∀ c, entry.value = .code c → c = .okay) → (∀ text, entry.value ≠ .errorText text) →
    result =
      .error (.failed (.protocol (.unexpectedResponse action.label entry.value.display)))

end Request

namespace Action

/-- Any code but okay is rejected as an error of the server. -/
theorem rejection_code {c : ReplyCode} (h : c ≠ .okay) (label : String) :
    rejection label (.code c) = .server (.code c) := by
  simp [rejection, ReplyCode.isOkay, h]

/-- What is no error of the server is rejected as unexpected. -/
theorem rejection_of_other {value : Value} (hcode : ∀ c, value = .code c → c = .okay)
    (htext : ∀ text, value ≠ .errorText text) (label : String) :
    rejection label value = .protocol (.unexpectedResponse label value.display) := by
  cases value with
  | code c =>
    have hokay : c = .okay := hcode c rfl
    simp [rejection, ReplyCode.isOkay, hokay]
  | errorText text => exact absurd rfl (htext text)
  | _ => rfl

end Action

namespace Request

variable {request : Request} {action : Action} {value : Value} {a : Answer}

/-- A request asks for a value in one form only. -/
theorem Grants.unique {b : Answer} (h : request.Grants value a) (hother : request.Grants value b) :
    a = b := by
  cases h <;> cases hother <;> rfl

/-- The only code that a request asks for is okay. -/
theorem Grants.eq_okay {c : ReplyCode} (h : request.Grants (.code c) a) : c = .okay := by
  cases h <;> rfl

/-- No request asks for a text in place of a code. -/
theorem Grants.ne_errorText {text : String} (h : request.Grants value a) :
    value ≠ .errorText text := by
  cases h <;> exact Value.noConfusion

/-- The action of a request accepts exactly what the request asks for. -/
theorem accepts_iff (haction : request.action? = some action) :
    action.accepts value = true ↔ ∃ a, request.Grants value a := by
  constructor
  · intro haccepts
    -- the cases in which an action accepts, and only requests that send this action
    fun_cases Action.accepts action value with
    | case1 echo text =>
      cases request <;> cases haction
      have htext : text = "HEY!" := by simpa [Action.accepts] using haccepts
      rw [htext]
      exact ⟨_, .alive⟩
    | case2 property text =>
      cases request <;> cases haction
      · exact ⟨_, .protocol text⟩
      · exact ⟨_, .version text⟩
    | case3 key text =>
      cases request <;> cases haction
      exact ⟨_, .text key text⟩
    | case4 key bytes =>
      cases request <;> cases haction
      exact ⟨_, .binary key bytes⟩
    | case5 username token =>
      cases request <;> cases haction
      exact ⟨_, .loggedIn username token⟩
    | case6 path =>
      cases request <;> cases haction
      exact ⟨_, .selected path⟩
    | case7 key stored =>
      cases request <;> cases haction
      exact ⟨_, .stored key stored⟩
    | case8 keys n =>
      cases request <;> cases haction
      exact ⟨_, .deleted keys n⟩
    | case9 keys n =>
      cases request <;> cases haction
      exact ⟨_, .existing keys n⟩
    | case10 value segments => cases request <;> cases haction
    | case11 action value => simp_all [Action.accepts]
  · rintro ⟨a, hgrants⟩
    cases hgrants <;> cases haction <;> rfl

/-- A value that the request asks for is valid for its action. -/
theorem Grants.validate_eq (h : request.Grants value a) (haction : request.action? = some action) :
    action.validate value = .ok () := by
  have haccepts : action.accepts value = true := (accepts_iff haction).mpr ⟨a, h⟩
  simp [Action.validate, haccepts]

/-- Any other value is rejected. -/
theorem validate_of_not_grants (haction : request.action? = some action)
    (h : ∀ a, ¬ request.Grants value a) :
    action.validate value = .error (Action.rejection action.label value) := by
  have haccepts : ¬ action.accepts value = true := by
    rw [accepts_iff haction, not_exists]
    exact h
  simp [Action.validate, haccepts]

variable {entry : Entry}

/-- The error of an entry is faithful to it. -/
theorem Faithful.of_flawed {e : Error} (h : entry.error = some e) :
    request.Faithful action entry (.error (.failed e)) where
  eq_ok_iff a := by simp [h]
  of_error found hfound := by
    rw [h] at hfound
    cases hfound
    rfl
  of_code c hnone := by simp [h] at hnone
  of_errorText text hnone := by simp [h] at hnone
  of_other hnone := by simp [h] at hnone

/-- The answer that a value becomes is faithful to it. -/
theorem Faithful.of_grants (hnone : entry.error = none) (h : request.Grants entry.value a) :
    request.Faithful action entry (.ok a) where
  eq_ok_iff b := by
    constructor
    · rintro ⟨⟩
      exact ⟨hnone, h⟩
    · rintro ⟨-, hother⟩
      rw [h.unique hother]
  of_error e herror := by simp [hnone] at herror
  of_code c _ hvalue hc := by
    rw [hvalue] at h
    exact absurd h.eq_okay hc
  of_errorText text _ hvalue := absurd hvalue h.ne_errorText
  of_other _ hnot := absurd h (hnot a)

/-- The rejection of a value that the request does not ask for is faithful to it. -/
theorem Faithful.of_rejected (hnone : entry.error = none)
    (h : ∀ a, ¬ request.Grants entry.value a) :
    request.Faithful action entry
      (.error (.failed (Action.rejection action.label entry.value))) where
  eq_ok_iff a := by simp [h a]
  of_error e herror := by simp [hnone] at herror
  of_code c _ hvalue hc := by
    refine ⟨_, rfl, ?_, ?_, ?_⟩
    all_goals rw [hvalue, Action.rejection_code hc]
    · rfl
    · simp [Error.isNotFound]
  of_errorText text _ hvalue := by
    rw [hvalue]
    rfl
  of_other _ _ hcode htext := by rw [Action.rejection_of_other hcode htext]

end Request

namespace Line

/-- What is on its way to the client once the next batch is written. -/
def incoming (line : Line) : Option (List Arrival) := do
  let stream ← line.conn.stream
  let written ← stream.write.toOption
  return written.inbound

/-- The server answers the next batch with this reply. It arrives in pieces, and anything may come
behind it. -/
def Delivers (line : Line) (reply : Bytes) : Prop :=
  ∃ (chunks : List Bytes) (later : List Arrival),
    line.incoming = some (chunks.map .bytes ++ later) ∧ (∀ chunk ∈ chunks, chunk ≠ []) ∧
      reply <+: chunks.flatten

/-- If something is on its way, the connection has a stream that the batch is written to. -/
theorem exists_of_incoming {line : Line} {arrivals : List Arrival}
    (h : line.incoming = some arrivals) :
    ∃ stream written, line.conn.stream = some stream ∧ stream.write = .ok written ∧
      written.inbound = arrivals := by
  obtain ⟨stream, hstream, hwritten⟩ := Option.bind_eq_some_iff.mp h
  obtain ⟨written, hwrite, hinbound⟩ := Option.bind_eq_some_iff.mp hwritten
  refine ⟨stream, written, hstream, ?_, Option.some.inj hinbound⟩
  cases hresult : stream.write with
  | error kind =>
    rw [hresult] at hwrite
    cases hwrite
  | ok found =>
    rw [hresult] at hwrite
    cases hwrite
    rfl

/-- The pieces of a reply deliver it. -/
theorem delivers_of_incoming {line : Line} {pieces : List Bytes}
    (hpieces : ∀ piece ∈ pieces, piece ≠ [])
    (h : line.incoming = some (pieces.map .bytes)) : line.Delivers pieces.flatten := by
  refine ⟨pieces, [], ?_, hpieces, List.prefix_refl _⟩
  rw [List.append_nil]
  exact h

/-- The line with the connection set to this namespace. -/
def selecting (line : Line) (path : Option String) : Line :=
  ⟨{ line.conn with config := line.conn.config.selecting path }, line.net⟩

end Line

namespace Connection

variable {line left : Line} {request : Request} {action : Action}

/-- An exchange leaves the settings as they are. -/
theorem config_of_exchange {actions : List Action} {result : Except Halt (List Entry)}
    (h : exchange actions line = (result, left)) : left.conn.config = line.conn.config := by
  have hexchanged := exchange_exchanged actions line
  rw [h] at hexchanged
  cases hexchanged with
  | unsent => rfl
  | unwritten _ _ _ hconfig => exact hconfig
  | unanswered _ _ hconfig => exact hconfig
  | answered _ _ hconfig => exact hconfig

/-- An action that is answered gets the result of its entry, once it has judged it. The connection
stays open, and its settings stay as they are. -/
theorem exec_of_answers {reply : Bytes} {entry : Entry} (hanswers : line.Answers reply)
    (hsendable : Packet.Sendable [action])
    (hdecode : Batch.decode reply = .complete [entry] reply.length) :
    ∃ left, left.conn.isClosed = false ∧ left.conn.config = line.conn.config ∧
      exec action line = ((judged entry action).result.mapError .failed, left) := by
  obtain ⟨batch, hbatch⟩ := hsendable.exists_encode
  obtain ⟨stream, -, -, -, hstream, -⟩ := hanswers.arrives
  have hactions : [action] ≠ [] := List.cons_ne_nil _ _
  obtain ⟨left, hsend, hopen⟩ := send_of_answers hactions hanswers hbatch hdecode rfl
  have hconfig : left.conn.config = line.conn.config := by
    have hexchange := hsend
    rw [send_eq_exchange hstream hactions] at hexchange
    rw [config_of_exchange hexchange, config_noteAbandoned]
  refine ⟨left, hopen, hconfig, ?_⟩
  rw [exec, Call.bind_run, hsend]
  exact Call.ofExcept_run _ _

/-- A request answers with what its action was granted. If it selects a namespace, the connection
keeps it. -/
theorem answer_of_grants {value : Value} {a : Answer} (haction : request.action? = some action)
    (hgrants : request.Grants value a) (hexec : exec action line = (.ok value, left)) :
    answer request line = (.ok a,
      left.selecting (selectedBy left.conn.config.defaultNamespace request (.ok a))) := by
  cases hgrants with
  | alive | stored =>
    cases haction
    simp only [answer, Call.bind_run, hexec]
    rfl
  | loggedIn =>
    cases haction
    simp only [answer, login, Call.bind_run, hexec]
    rfl
  | selected =>
    cases haction
    simp only [answer, useNamespace, Call.bind_run, hexec]
    rfl
  | protocol | version =>
    cases haction
    simp only [answer, systemInfo, Call.map_run, Call.bind_run, hexec]
    rfl
  | text | binary =>
    cases haction
    simp only [answer, Call.map_run, hexec]
    rfl
  | deleted =>
    cases haction
    simp only [answer, delete, Call.map_run, Call.bind_run, hexec]
    rfl
  | existing =>
    cases haction
    simp only [answer, countExisting, Call.map_run, Call.bind_run, hexec]
    rfl

/-- A request ends as its action does if that has no value. -/
theorem answer_of_halt {halt : Halt} (haction : request.action? = some action)
    (hexec : exec action line = (.error halt, left)) :
    answer request line = (.error halt, left) := by
  cases request with
  | exec | batch | command | loginWith | close => cases haction
  | heya | set =>
    cases haction
    simp only [answer, Call.bind_run, hexec]
  | login =>
    cases haction
    simp only [answer, login, Call.bind_run, hexec]
  | use =>
    cases haction
    simp only [answer, useNamespace, Call.bind_run, hexec]
  | protocol | version =>
    cases haction
    simp only [answer, systemInfo, Call.map_run, Call.bind_run, hexec, Except.map]
  | get =>
    cases haction
    simp only [answer, Call.map_run, hexec, Except.map]
  | del =>
    cases haction
    simp only [answer, delete, Call.map_run, Call.bind_run, hexec, Except.map]
  | «exists» =>
    cases haction
    simp only [answer, countExisting, Call.map_run, Call.bind_run, hexec, Except.map]

section Opened

variable {config : Config} {net opened : Network} {conn : Connection} {operations : List Operation}
  (hopen : establish config net = (.ok conn, opened))
  (hrun : Line.Reaches ⟨conn, opened⟩ operations line)
  (hbuffer : line.conn.reader.buffer = [])

include hopen hrun hbuffer

/-- An open connection with nothing buffered reads a reply within its limit from the start,
whatever happened to it before. -/
theorem answers_of_reaches {reply : Bytes} (hdelivers : line.Delivers reply)
    (hlength : reply.length ≤ line.conn.reader.limit) : line.Answers reply where
  resumable := by
    obtain ⟨_, _, hincoming, -⟩ := hdelivers
    obtain ⟨stream, -, hstream, -⟩ := Line.exists_of_incoming hincoming
    have hline : line.conn.isClosed = false := by simp [isClosed, hstream]
    rw [reader_of_reaches hopen hrun hline hbuffer]
    exact .of_start [] _
  buffer_eq := hbuffer
  length_le := hlength
  arrives := by
    obtain ⟨chunks, later, hincoming, hchunks, hprefix⟩ := hdelivers
    obtain ⟨stream, written, hstream, hwrite, hinbound⟩ := Line.exists_of_incoming hincoming
    exact ⟨stream, written, chunks, later, hstream, hwrite, hinbound, hchunks, hprefix⟩

/-- What a request answers is faithful to the reply. On an open connection that has nothing
buffered, a request whose action can be sent gets a reply within the limit that is a batch of one
entry. Then it succeeds exactly if the entry was decoded without an error and its value is one that
the request asks for. An error of decoding, a code other than okay and a text in place of a code are
all returned as what they are, and every other value as unexpected. The connection stays open in
each of these cases, and only selecting a namespace with success changes its settings, which are
then set to this namespace. -/
theorem answer_is_faithful {request : Request} {action : Action} {reply : Bytes} {entry : Entry}
    {result : Except Halt Answer} {after : Line} (haction : request.action? = some action)
    (hsendable : Packet.Sendable [action]) (hdelivers : line.Delivers reply)
    (hdecode : Batch.decode reply = .complete [entry] reply.length)
    (hlength : reply.length ≤ line.conn.reader.limit)
    (hanswer : answer request line = (result, after)) :
    request.Faithful action entry result ∧ after.conn.isClosed = false ∧
      after.conn.config = line.conn.config.selecting
        (selectedBy line.conn.config.defaultNamespace request result) := by
  have hanswers : line.Answers reply := answers_of_reaches hopen hrun hbuffer hdelivers hlength
  obtain ⟨left, hleft, hconfig, hexec⟩ := exec_of_answers hanswers hsendable hdecode
  rw [result_judged] at hexec
  -- a failure of the action leaves the line as the action does
  have hfailed {e : Error} (h : exec action line = (.error (.failed e), left)) :
      result = .error (.failed e) ∧ after.conn.isClosed = false ∧
        after.conn.config = line.conn.config.selecting
          (selectedBy line.conn.config.defaultNamespace request result) := by
    cases hanswer.symm.trans (answer_of_halt haction h)
    rw [selectedBy_error]
    exact ⟨rfl, hleft, hconfig⟩
  cases hnone : entry.error with
  | some e =>
    rw [hnone] at hexec
    obtain ⟨rfl, hafter⟩ := hfailed hexec
    exact ⟨.of_flawed hnone, hafter⟩
  | none =>
    rw [hnone] at hexec
    dsimp only at hexec
    by_cases hgranted : ∃ a, request.Grants entry.value a
    · obtain ⟨a, hgrants⟩ := hgranted
      rw [hgrants.validate_eq haction] at hexec
      cases hanswer.symm.trans (answer_of_grants haction hgrants hexec)
      refine ⟨.of_grants hnone hgrants, hleft, ?_⟩
      rw [← hconfig]
      rfl
    · have hnot : ∀ a, ¬ request.Grants entry.value a := not_exists.mp hgranted
      rw [Request.validate_of_not_grants haction hnot] at hexec
      obtain ⟨rfl, hafter⟩ := hfailed hexec
      exact ⟨.of_rejected hnone hnot, hafter⟩

end Opened

/-- The pieces of a reply with the code okay. -/
def okayPieces : List Bytes := [[42, 49, 10, 33], [49, 10, 48, 10]]

/-- The pieces of a reply with the code nil. -/
def nilPieces : List Bytes := [[42, 49], [10, 33, 49, 10], [49, 10]]

/-- The first reply is one entry with the code okay. -/
theorem decode_okayPieces : Batch.decode okayPieces.flatten =
    .complete [⟨.scalar .responseCode, .code .okay, none⟩] okayPieces.flatten.length := rfl

/-- The second reply is one entry with the code nil. -/
theorem decode_nilPieces : Batch.decode nilPieces.flatten =
    .complete [⟨.scalar .responseCode, .code .nil, none⟩] nilPieces.flatten.length := rfl

/-- A server that accepts the version of the protocol, and answers the next batch with okay and the
one after it with nil. -/
def shopServer : Network :=
  .ofDials [.accepted [.sending (Utf8.encode "*1\n+11\nSkyhash-1.1\n") false,
    ⟨okayPieces.map .bytes, false, none⟩, ⟨nilPieces.map .bytes, false, none⟩]]

/-- A namespace is selected, and stays selected when a count is refused afterwards. The code that
refuses it is not taken for a number. -/
theorem answer_is_faithful_shop :
    let config := Config.ofAddress "127.0.0.1:2003"
    ∃ conn opened middle after, establish config shopServer = (.ok conn, opened) ∧
      answer (.use "shop") ⟨conn, opened⟩ = (.ok .done, middle) ∧
      answer (.exists ["a", "b"]) middle = (.error (.failed (.server (.code .nil))), after) ∧
      after.conn.isClosed = false ∧
      after.conn.config = conn.config.selecting (some "shop") := by
  intro config
  let facts (line : Line) := (line.conn.reader.buffer, line.conn.reader.limit, line.incoming)
  have hfacts : (match establish config shopServer with
      | (.ok conn, opened) =>
        (facts ⟨conn, opened⟩, facts (answer (.use "shop") ⟨conn, opened⟩).2)
      | (.error _, _) => (([], 0, none), [], 0, none)) =
        (([], Reader.defaultLimit, some (okayPieces.map .bytes)),
          [], Reader.defaultLimit, some (nilPieces.map .bytes)) := by
    decide +kernel
  cases hopen : establish config shopServer with
  | mk established opened =>
    rw [hopen] at hfacts
    cases established with
    | error halt => cases hfacts
    | ok conn =>
      cases hselect : answer (.use "shop") ⟨conn, opened⟩ with
      | mk selected middle =>
        cases hcount : answer (.exists ["a", "b"]) middle with
        | mk counted after =>
          simp only [facts, hselect, Prod.mk.injEq] at hfacts
          obtain ⟨⟨hbuffer, hlimit, hincoming⟩, hbufferMiddle, hlimitMiddle, hincomingMiddle⟩ :=
            hfacts
          have hsendableUse : Packet.Sendable [.use "shop"] :=
            List.forall_mem_singleton.mpr ⟨_, by rfl⟩
          have hsendableExists : Packet.Sendable [.exists ["a", "b"]] :=
            List.forall_mem_singleton.mpr ⟨_, by rfl⟩
          obtain ⟨hokay, -, hconfig⟩ := answer_is_faithful hopen .start hbuffer rfl hsendableUse
            (Line.delivers_of_incoming (by decide) hincoming) decode_okayPieces
            (hlimit ▸ by decide) hselect
          have hselected : selected = .ok .done := (hokay.eq_ok_iff _).mpr ⟨rfl, .selected _⟩
          cases hselected
          have hrun : Line.Reaches ⟨conn, opened⟩ [.ask (.use "shop")] middle := by
            have hasked := Line.Operates.asked (.use "shop") ⟨conn, opened⟩
            rw [hselect] at hasked
            exact .step .start hasked
          obtain ⟨hnil, hafter, hconfigAfter⟩ := answer_is_faithful hopen hrun hbufferMiddle rfl
            hsendableExists (Line.delivers_of_incoming (by decide) hincomingMiddle)
            decode_nilPieces (hlimitMiddle ▸ by decide) hcount
          obtain ⟨e, hrefused, he, -⟩ := hnil.of_code .nil rfl rfl (by decide)
          have hcounted : counted = .error (.failed (.server (.code .nil))) := he ▸ hrefused
          cases hcounted
          exact ⟨conn, opened, middle, after, rfl, hselect, hcount, hafter,
            hconfigAfter.trans hconfig⟩

end Connection

end StoreClient
