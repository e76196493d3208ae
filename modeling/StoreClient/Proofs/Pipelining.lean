import StoreClient.Proofs.Commands
import StoreClient.Proofs.Severity
import StoreClient.Proofs.Streaming

/-!
# Pipelining is transparent

Actions that are sent in one packet get the entries that each would get on its own. The parts of
the answer are read one after the other, each by itself, and each action judges the entry at its
own place. The main statement is `Connection.pipelining_is_transparent`. It is about any stream
that brings the answer, however it is cut into pieces and whatever comes behind it.
-/

namespace StoreClient

/-- The connection is open with nothing buffered, and its server answers the next batch with this
response, which is within the limit. It arrives in pieces, and anything may come behind it. -/
structure Line.Answers (line : Line) (response : Bytes) : Prop where
  resumable : line.conn.reader.Resumable
  buffer_eq : line.conn.reader.buffer = []
  length_le : response.length ≤ line.conn.reader.limit
  arrives : ∃ (stream written : Stream) (chunks : List Bytes) (later : List Arrival),
    line.conn.stream = some stream ∧ stream.write = .ok written ∧
      written.inbound = chunks.map .bytes ++ later ∧ (∀ chunk ∈ chunks, chunk ≠ []) ∧
      response <+: chunks.flatten

namespace Batch

/-- The bytes of an entry that make a batch of their own are read as the entry, whatever stands
behind them. -/
theorem reads_entry_of_decode {reply : Bytes} {entry : Entry}
    (h : decode (Wire.batchHeader 1 ++ reply) =
      .complete [entry] (Wire.batchHeader 1 ++ reply).length) :
    Parse.Reads Parse.entry reply entry := by
  obtain ⟨rest, hbatch, hsize⟩ := decode_eq_complete_iff.mp h
  obtain ⟨count, behind, hheader, hentries⟩ := Parse.bind_eq_ok.mp hbatch
  rw [reads_batchHeader (by decide) reply] at hheader
  cases hheader
  obtain ⟨first, after, hfirst, hnone⟩ := Parse.bind_eq_ok.mp hentries
  cases hnone
  obtain ⟨taken, hreply, hreads⟩ := Parse.Stable.entry.reads hfirst
  have hrest : rest = [] := by
    have hlength := congrArg List.length hreply
    rw [List.length_append] at hsize hlength
    exact List.eq_nil_of_length_eq_zero (by omega)
  rw [hreply, hrest, List.append_nil]
  exact hreads

end Batch

/-- Actions that can be sent one by one can be sent in one batch. -/
theorem Packet.exists_encode {actions : List Action}
    (h : ∀ action ∈ actions, ∃ batch, encode [action] = .ok batch) :
    ∃ batch, encode actions = .ok batch := by
  have hsendable : ∀ action ∈ actions, action.IsSendable := by
    intro action haction
    obtain ⟨batch, hbatch⟩ := h action haction
    exact isSendable_of_encode hbatch action (List.mem_singleton_self action)
  exact ⟨_, encode_eq hsendable⟩

namespace Connection

variable {actions : List Action} {line : Line} {response : Bytes} {decoded : List Entry}

/-- What an action makes of an entry that was decoded: an error that the entry has stays, and
otherwise the action validates the value. -/
theorem judged_spec (entry : Entry) (action : Action) :
    (judged entry action).declared = entry.declared ∧
      (judged entry action).value = entry.value ∧
      (∀ e, entry.error = some e → judged entry action = entry) ∧
      (entry.error = none →
        ∀ e, (judged entry action).error = some e ↔ action.validate entry.value = .error e) := by
  unfold judged
  cases herror : entry.error with
  | some e => exact ⟨rfl, rfl, fun _ _ => rfl, nofun⟩
  | none =>
    cases action.validate entry.value with
    | ok => exact ⟨rfl, rfl, nofun, fun _ e => by simp [herror]⟩
    | error cause => exact ⟨rfl, rfl, nofun, fun _ e => by simp⟩

/-- An exchange that is answered with a batch of as many entries as there are actions gives the
judged entries, and leaves the connection open. -/
theorem exchange_of_answers (hanswers : line.Answers response) {batch : Bytes}
    (hencode : Packet.encode actions = .ok batch)
    (hdecode : Batch.decode response = .complete decoded response.length)
    (hlength : decoded.length = actions.length) :
    ∃ after, exchange actions line = (.ok (decoded.zipWith judged actions), after) ∧
      after.conn.isClosed = false := by
  obtain ⟨stream, written, chunks, later, hstream, hwrite, hinbound, hchunks, rest, hrest⟩ :=
    hanswers.arrives
  have hreceived : line.conn.reader.buffer ++ chunks.flatten = response ++ rest := by
    rw [hanswers.buffer_eq, List.nil_append, hrest]
  obtain ⟨taken, -, -, -, hread⟩ := Reader.read_of_batch written.ended later
    hanswers.resumable hdecode hanswers.length_le hchunks hreceived
  unfold exchange
  simp only [hencode, hstream, hwrite, hinbound, hread, answered, hlength, if_true]
  exact ⟨_, rfl, rfl⟩

/-- A packet that is answered with a batch of as many entries as it has actions gives the judged
entries, and leaves the connection open. -/
theorem send_of_answers (hactions : actions ≠ []) (hanswers : line.Answers response)
    {batch : Bytes} (hencode : Packet.encode actions = .ok batch)
    (hdecode : Batch.decode response = .complete decoded response.length)
    (hlength : decoded.length = actions.length) :
    ∃ after, send actions false line = (.ok (decoded.zipWith judged actions), after) ∧
      after.conn.isClosed = false := by
  obtain ⟨stream, -, -, -, hstream, -⟩ := hanswers.arrives
  have hnoted : Line.Answers ⟨line.conn.noteAbandoned, line.net⟩ response := by
    obtain ⟨hresumable, hbuffer, hlimit, harrives⟩ := hanswers
    unfold noteAbandoned
    split
    · exact ⟨hresumable, hbuffer, hlimit, harrives⟩
    · exact ⟨hresumable, hbuffer, hlimit, harrives⟩
  rw [send_eq_exchange hstream hactions]
  exact exchange_of_answers hnoted hencode hdecode hlength

/-- Pipelining is transparent. If actions are sent in one packet and the answer is made of replies
each of which would be the answer to one action, there is an entry for each action, in order. It is
the entry that the action gets when it is sent alone and answered with its reply: the decoded one
with the verdict of this action, or with the error that it was decoded with. The connection stays
open in either case. -/
theorem pipelining_is_transparent {replies : List Bytes} (hactions : actions ≠ [])
    (hcount : actions.length < Numeral.bound)
    (hencode : ∀ action ∈ actions, ∃ batch, Packet.encode [action] = .ok batch)
    (hlength : replies.length = actions.length)
    (hreplies : ∀ reply ∈ replies, ∃ entry, Batch.decode (Wire.batchHeader 1 ++ reply) =
      .complete [entry] (Wire.batchHeader 1 ++ reply).length)
    (hanswers : line.Answers (Wire.batchHeader actions.length ++ replies.flatten)) :
    ∃ entries after, send actions false line = (.ok entries, after) ∧
      after.conn.isClosed = false ∧ entries.length = actions.length ∧
      ∀ (i : Nat) action reply, actions[i]? = some action → replies[i]? = some reply →
        ∃ entry, entries[i]? = some entry ∧
          (∀ alone : Line, alone.Answers (Wire.batchHeader 1 ++ reply) →
            ∃ left, send [action] false alone = (.ok [entry], left) ∧
              left.conn.isClosed = false) ∧
          ∃ decoded, Batch.decode (Wire.batchHeader 1 ++ reply) =
              .complete [decoded] (Wire.batchHeader 1 ++ reply).length ∧
            entry.declared = decoded.declared ∧ entry.value = decoded.value ∧
            (∀ e, decoded.error = some e → entry = decoded) ∧
            (decoded.error = none →
              ∀ e, entry.error = some e ↔ action.validate decoded.value = .error e) := by
  obtain ⟨batch, hbatch⟩ := Packet.exists_encode hencode
  obtain ⟨decoded, hdecoded⟩ := exists_forall₂ hreplies
  have hdecodedLength : decoded.length = actions.length := hdecoded.length_eq.symm.trans hlength
  have hreads := hdecoded.flip.imp fun _ _ => Batch.reads_entry_of_decode
  have hdecode := Batch.decode_of_reads (hdecodedLength ▸ hcount) hreads []
  rw [List.append_nil, hdecodedLength] at hdecode
  obtain ⟨after, hsend, hopen⟩ := send_of_answers hactions hanswers hbatch hdecode hdecodedLength
  refine ⟨_, after, hsend, hopen, ?_, fun i action reply haction hreply => ?_⟩
  · rw [List.length_zipWith, hdecodedLength, Nat.min_self]
  obtain ⟨hi, rfl⟩ := List.getElem?_eq_some_iff.mp hreply
  have hi' : i < decoded.length := hdecoded.length_eq ▸ hi
  have hone := hdecoded.get hi hi'
  refine ⟨judged decoded[i] action, ?_, fun alone halone => ?_, decoded[i], hone,
    judged_spec decoded[i] action⟩
  · rw [List.getElem?_zipWith, haction, List.getElem?_eq_getElem hi']
  · obtain ⟨single, hsingle⟩ := hencode action (List.mem_of_getElem? haction)
    exact send_of_answers (List.cons_ne_nil _ _) halone hsingle hone rfl

/-- Three actions: one that gets its value, one that is refused, and one whose number comes with a
wrong size. -/
def threeActions : List Action := [.get "k", .heya none, .del ["a", "b"]]

/-- The replies to the three actions. -/
def threeReplies : List Bytes :=
  [[43, 50, 10, 104, 105, 10], [33, 49, 10, 49, 10], [58, 50, 10, 55, 10]]

/-- An open connection to a server that answers the next batch with these pieces. -/
def answeringLine (pieces : List Bytes) : Line :=
  ⟨start (.ofAddress "127.0.0.1:2003") ⟨0, [⟨pieces.map .bytes, false, none⟩], [], false⟩,
    .ofDials []⟩

/-- What arrives in pieces is the answer. -/
theorem answeringLine_answers {pieces : List Bytes} (hpieces : ∀ piece ∈ pieces, piece ≠ [])
    (hlength : pieces.flatten.length ≤ Reader.defaultLimit) :
    (answeringLine pieces).Answers pieces.flatten where
  resumable := .of_start [] _
  buffer_eq := rfl
  length_le := hlength
  arrives := ⟨_, _, pieces, [], rfl, rfl, (List.append_nil _).symm, hpieces, List.prefix_refl _⟩

/-- The refused action gets the same entry when it is sent alone, where the answer is cut into other
pieces. -/
theorem pipelining_is_transparent_three :
    let together : List Bytes := [[42, 51, 10, 43, 50, 10, 104], [105, 10, 33, 49, 10, 49],
      [10, 58, 50, 10, 55, 10]]
    let alone : List Bytes := [[42, 49], [10, 33, 49, 10, 49, 10]]
    ∃ entries after entry left,
      send threeActions false (answeringLine together) = (.ok entries, after) ∧
        after.conn.isClosed = false ∧ entries.length = 3 ∧ entries[1]? = some entry ∧
        send [.heya none] false (answeringLine alone) = (.ok [entry], left) ∧
        left.conn.isClosed = false := by
  intro together alone
  have hencode : ∀ action ∈ threeActions, ∃ batch, Packet.encode [action] = .ok batch := by
    simp only [threeActions, List.forall_mem_cons]
    exact ⟨⟨_, rfl⟩, ⟨_, rfl⟩, ⟨_, rfl⟩, nofun⟩
  have hreplies : ∀ reply ∈ threeReplies, ∃ entry,
      Batch.decode (Wire.batchHeader 1 ++ reply) =
        .complete [entry] (Wire.batchHeader 1 ++ reply).length := by
    simp only [threeReplies, List.forall_mem_cons]
    exact ⟨⟨_, by rfl⟩, ⟨_, by rfl⟩, ⟨_, by rfl⟩, nofun⟩
  have htogether : (answeringLine together).Answers
      (Wire.batchHeader threeActions.length ++ threeReplies.flatten) :=
    answeringLine_answers (by decide) (by decide)
  have halone : (answeringLine alone).Answers (Wire.batchHeader 1 ++ [33, 49, 10, 49, 10]) :=
    answeringLine_answers (by decide) (by decide)
  obtain ⟨entries, after, hsend, hopen, hlength, hentries⟩ :=
    pipelining_is_transparent (by decide) (by decide) hencode (by decide) hreplies htogether
  obtain ⟨entry, hentry, hsingle, -⟩ := hentries 1 (.heya none) _ rfl rfl
  obtain ⟨left, hleft, hleftOpen⟩ := hsingle _ halone
  exact ⟨entries, after, entry, left, hsend, hopen, hlength, hentry, hleft, hleftOpen⟩

end Connection

end StoreClient
