import StoreClient.Proofs.Discipline
import StoreClient.Proofs.Severity

/-!
# What prepares a stream

A connection opens its streams in calls, and each call finds the settings that the calls before
have left. This file proves for one call, on any network, that it leaves the settings as they are
but for a namespace that it selects, and that on every stream which it opens the first batches
are the preparing actions of the settings before it.
-/

namespace StoreClient

/-- The batches that were sent according to a log, in order. -/
def sentIn (log : List Event) : List Bytes :=
  log.filterMap fun event =>
    match event with
    | .sent _ batch => some batch
    | _ => none

/-- The batches that the server received on a stream are those in its log. -/
theorem Network.sentOn_eq (net : Network) (stream : Nat) :
    net.sentOn stream = sentIn (net.logOf stream) := by
  unfold sentOn sentIn logOf
  rw [List.filterMap_filter]
  congr 1
  funext event
  by_cases hstream : event.stream = stream
  · rw [if_pos (decide_eq_true hstream)]
    cases event with
    | sent number batch => exact if_pos hstream
    | _ => rfl
  · rw [if_neg (by simpa using hstream)]
    cases event with
    | sent number batch => exact if_neg hstream
    | _ => rfl

namespace Config

/-- The batches begin with the actions that prepare this stream under the settings, one in each
batch. -/
def PreparedBy (config : Config) (stream : Nat) (batches : List Bytes) : Prop :=
  ∀ (i : Nat) (due : Except Error Action) (batch : Bytes),
    (Due.ofConfig config (stream + 1))[i]? = some due → batches[i]? = some batch →
    ∃ action, due = .ok action ∧ Packet.encode [action] = .ok batch

variable {config : Config} {stream : Nat} {batches : List Bytes} {batch : Bytes}

/-- Nothing was sent yet. -/
theorem PreparedBy.nil (config : Config) (stream : Nat) : config.PreparedBy stream [] := by
  intro i due batch _ hbatch
  cases hbatch

/-- One more batch of actions that may be sent. -/
theorem PreparedBy.concat (h : config.PreparedBy stream batches) {actions : List Action}
    (hallows : Due.Allows ((Due.ofConfig config (stream + 1)).drop batches.length) actions)
    (hsaid : Packet.Says actions batch) : config.PreparedBy stream (batches ++ [batch]) := by
  intro i due sent hdue hsent
  by_cases hi : i < batches.length
  · rw [List.getElem?_append_left hi] at hsent
    exact h i due sent hdue hsent
  · have hlast : i = batches.length := by
      have hlt := (List.getElem?_eq_some_iff.mp hsent).1
      rw [List.length_append, List.length_singleton] at hlt
      omega
    subst hlast
    rw [List.getElem?_concat_length] at hsent
    cases hsent
    obtain ⟨hlt, hget⟩ := List.getElem?_eq_some_iff.mp hdue
    rw [List.drop_eq_getElem_cons hlt, hget] at hallows
    cases due with
    | ok action =>
      obtain rfl : actions = [action] := hallows
      exact ⟨action, rfl, Packet.encode_eq_ok_iff.mpr hsaid⟩
    | error e => exact absurd hallows id

/-- If the credentials are fixed, they are what the second batch logs in with. -/
theorem PreparedBy.login (h : config.PreparedBy stream batches) {login : Credentials}
    (hauth : config.auth = some (.fixed login)) (hbatch : batches[1]? = some batch) :
    Packet.encode [.login login.username login.token] = .ok batch := by
  have hdue : (Due.ofConfig config (stream + 1))[1]? =
      some (.ok (.login login.username login.token)) := by
    rw [Due.ofConfig, hauth]
    rfl
  obtain ⟨action, haction, hencode⟩ := h 1 _ batch hdue hbatch
  cases haction
  exact hencode

/-- The place of the batch that selects the namespace. -/
def selection (config : Config) : Nat := 1 + config.auth.toList.length

/-- If there is a namespace, it is what the batch behind the login selects. -/
theorem PreparedBy.use (h : config.PreparedBy stream batches) {path : String}
    (hpath : config.defaultNamespace = some path)
    (hbatch : batches[config.selection]? = some batch) :
    Packet.encode [.use path] = .ok batch := by
  have hdue : (Due.ofConfig config (stream + 1))[config.selection]? = some (.ok (.use path)) := by
    rw [Due.ofConfig, hpath, selection]
    cases config.auth <;> rfl
  obtain ⟨action, haction, hencode⟩ := h _ _ batch hdue hbatch
  cases haction
  exact hencode

end Config

section Sessions

variable {stream : Nat} {config : Config} {log : List Event}

/-- While every exchange is served, what is due is what was not sent. -/
theorem Served.preparedBy {reader : Reader} {due : Due} (h : Served stream config reader due log) :
    config.PreparedBy stream (sentIn log) ∧
      due = (Due.ofConfig config (stream + 1)).drop (sentIn log).length := by
  induction h with
  | opened => exact ⟨.nil config stream, rfl⟩
  | exchanged _ hallows hsaid _ _ ih =>
    obtain ⟨hprepared, hdue⟩ := ih
    rw [sentIn, List.filterMap_append]
    refine ⟨hprepared.concat (hdue ▸ hallows) hsaid, ?_⟩
    rw [List.length_append, hdue, List.tail_drop]
    rfl

/-- In every session the first batches are the preparing actions of its settings. -/
theorem Session.preparedBy (h : Session stream config log) :
    config.PreparedBy stream (sentIn log) := by
  cases h with
  | served hserved => exact hserved.preparedBy.1
  | refused hserved hallows hsaid =>
    obtain ⟨hprepared, hdue⟩ := hserved.preparedBy
    rw [sentIn, List.filterMap_append]
    exact hprepared.concat (hdue ▸ hallows) hsaid
  | unanswered hserved hallows hsaid =>
    obtain ⟨hprepared, hdue⟩ := hserved.preparedBy
    rw [sentIn, List.filterMap_append]
    exact hprepared.concat (hdue ▸ hallows) hsaid
  | unwritten hserved =>
    have hprepared := hserved.preparedBy.1
    rw [sentIn, List.filterMap_append]
    rw [show List.filterMap _ [Event.halted stream] = [] from rfl, List.append_nil]
    exact hprepared

end Sessions

/-- Streams that were all opened under one namespace are prepared under it. -/
theorem Network.Records.preparedBy {config : Config} {path : Option String} {net : Network}
    {first opened stream : Nat} (h : net.Records config first (List.replicate opened path))
    (hle : first ≤ stream) (hlt : stream < net.accepted) :
    (config.selecting path).PreparedBy stream (net.sentOn stream) := by
  obtain ⟨i, rfl⟩ := Nat.exists_eq_add_of_le hle
  have haccepted := h.accepted_eq
  rw [List.length_replicate] at haccepted
  have hpath : (List.replicate opened path)[i]? = some path := by
    rw [List.getElem?_replicate, if_pos (by omega)]
  rw [Network.sentOn_eq]
  exact (h.session i path hpath).preparedBy

/-- The reader of the connection has the limit that its settings give it. -/
def Connection.Fits (conn : Connection) : Prop := conn.reader.limit = conn.config.maxResponseSize

/-- The connection is under these settings, and its reader fits them. -/
structure Line.Under (config : Config) (line : Line) : Prop where
  config_eq : line.conn.config = config
  fits : line.conn.Fits

/-- What keeps the settings and the limit of the reader keeps the connection under the settings. -/
theorem Line.Under.change {config : Config} {line : Line} (h : line.Under config)
    {conn : Connection} {net : Network} (hconfig : conn.config = line.conn.config)
    (hlimit : conn.reader.limit = line.conn.reader.limit) : Line.Under config ⟨conn, net⟩ := by
  refine ⟨hconfig.trans h.config_eq, ?_⟩
  rw [Connection.Fits, hlimit, hconfig]
  exact h.fits

namespace Connection

variable {config : Config} {request : Request}

/-- An exchange keeps the settings. -/
theorem exchange_preserves_under (actions : List Action) :
    (exchange actions).Preserves (Line.Under config) := by
  refine .of_run fun line result after hunder hrun => ?_
  have hexchanged := exchange_exchanged actions line
  rw [hrun] at hexchanged
  cases hexchanged with
  | unsent e => exact hunder
  | unwritten e _ _ hconfig hlimit _ => exact hunder.change hconfig hlimit
  | unanswered _ _ hconfig hlimit _ _ => exact hunder.change hconfig hlimit
  | answered _ _ hconfig hreader _ _ _ =>
    apply hunder.change hconfig
    rw [hreader]
    exact Reader.limit_read _ _ _

/-- So does an exchange of one action for its value. -/
theorem roundTrip_preserves_under (action : Action) :
    (roundTrip action).Preserves (Line.Under config) :=
  (exchange_preserves_under [action]).bind fun _ => .ofExcept _

/-- A handshake keeps the settings. -/
theorem handshake_preserves_under : handshake.Preserves (Line.Under config) :=
  handshake_preserves_of exchange_preserves_under fun _ h => h.change rfl rfl

/-- A connection that is opened is under the settings that it is opened with. -/
theorem under_of_establish {net after : Network} {conn : Connection}
    (h : establish config net = (.ok conn, after)) : Line.Under config ⟨conn, after⟩ := by
  unfold establish at h
  split at h
  · cases h
  · rename_i stream dialed hdial
    have hstarted : Line.Under config ⟨start config stream, dialed⟩ := ⟨rfl, rfl⟩
    split at h
    · rename_i line hhandshake
      cases h
      exact handshake_preserves_under.ok hstarted hhandshake
    · cases h

/-- Dialing again keeps the settings. -/
theorem redial_preserves_under : redial.Preserves (Line.Under config) := by
  refine .of_run fun line result after hunder hrun => ?_
  unfold redial at hrun
  split at hrun
  · cases hrun
    exact hunder.change rfl rfl
  · cases hrun
    exact hunder.change rfl rfl

/-- A connection that is opened again keeps its settings. -/
theorem reopen_preserves_under : reopen.Preserves (Line.Under config) := by
  have hprepared : (do redial; handshake : Call Unit).Preserves (Line.Under config) :=
    redial_preserves_under.bind fun _ => handshake_preserves_under
  refine Call.Preserves.bind (.update fun _ h => h.change rfl rfl) fun _ => ?_
  refine Call.Preserves.bind ?_ fun _ => .update fun _ h => h.change rfl rfl
  exact Call.Meets.onFailure hprepared (fun _ _ h => h.change rfl rfl) fun _ h => h

/-- Noting an exchange that was given up keeps the settings. -/
theorem under_noteAbandoned {line : Line} (h : line.Under config) :
    Line.Under config ⟨line.conn.noteAbandoned, line.net⟩ := by
  unfold noteAbandoned
  split
  · exact h.change rfl rfl
  · exact h

/-- Sending a packet keeps the settings. -/
theorem send_preserves_under (actions : List Action) (cancelled : Bool) :
    (send actions cancelled).Preserves (Line.Under config) := by
  have hnote : (Call.update noteAbandoned).Preserves (Line.Under config) :=
    .update fun _ h => under_noteAbandoned h
  have hreopen : reopen.Meets (fun line => line.Under config ∧ line.conn.stream = none)
      (fun _ => Line.Under config) fun _ => Line.Under config :=
    reopen_preserves_under.mono (fun _ h => h.1) (fun _ _ h => h) fun _ _ h => h
  exact send_preserves_of cancelled hnote hreopen (exchange_preserves_under actions)

/-- Whatever is asked of a connection, it stays under its settings, but for a namespace that is
selected. -/
theorem under_of_answer {line after : Line} {result : Except Halt Answer}
    (hunder : line.Under config) (h : answer request line = (result, after)) :
    after.Under (config.selecting (selectedBy config.defaultNamespace request result)) := by
  by_cases huse : ∃ path, request = .use path
  · obtain ⟨path, rfl⟩ := huse
    have hexec : (exec (.use path)).Preserves (Line.Under config) :=
      (send_preserves_under [.use path] false).bind fun _ => .ofExcept _
    have hanswer : (answer (.use path)).Meets (Line.Under config)
        (fun _ => Line.Under (config.selecting (some path))) fun _ => Line.Under config :=
      answer_use_meets hexec fun left hleft => ⟨by rw [← hleft.config_eq], hleft.fits⟩
    cases result with
    | ok a => exact hanswer.ok hunder h
    | error halt => exact hanswer.halt hunder h
  · have hother : ∀ path, request ≠ .use path := fun path hpath => huse ⟨path, hpath⟩
    have hanswer : (answer request).Preserves (Line.Under config) :=
      answer_meets_of_send hother (fun _ h => h) (fun _ h => h.change rfl rfl)
        send_preserves_under
    rw [selectedBy_of_other hother]
    cases result with
    | ok a => exact hanswer.ok hunder h
    | error halt => exact hanswer.halt hunder h

/-- An exchange dials nothing. -/
theorem accepted_of_exchange (actions : List Action) (line : Line) :
    (exchange actions line).2.net.accepted = line.net.accepted := by
  have hexchanged := exchange_exchanged actions line
  cases hrun : exchange actions line with
  | mk result after =>
    rw [hrun] at hexchanged
    cases hexchanged <;> rfl

/-- Sending a packet on an open connection dials nothing. -/
theorem accepted_of_send {line : Line} {stream : Stream} (hstream : line.conn.stream = some stream)
    (actions : List Action) (cancelled : Bool) :
    (send actions cancelled line).2.net.accepted = line.net.accepted := by
  cases cancelled with
  | true => rfl
  | false =>
    by_cases hactions : actions = []
    · subst hactions
      rfl
    · rw [send_eq_exchange hstream hactions]
      exact accepted_of_exchange actions _

/-- On an open connection nothing is dialed, whatever is asked of it. -/
theorem accepted_of_answer {line after : Line} {stream : Stream} {result : Except Halt Answer}
    (hstream : line.conn.stream = some stream) (h : answer request line = (result, after)) :
    after.net.accepted = line.net.accepted := by
  have hsend (actions : List Action) (cancelled : Bool) :
      (send actions cancelled).Meets (· = line)
        (fun _ left => left.net.accepted = line.net.accepted)
        fun _ left => left.net.accepted = line.net.accepted := by
    have haccepted := accepted_of_send hstream actions cancelled
    constructor
    · rintro before left entries rfl hrun
      rw [hrun] at haccepted
      exact haccepted
    · rintro before left halt rfl hrun
      rw [hrun] at haccepted
      exact haccepted
  have hanswer : (answer request).Meets (· = line)
      (fun _ left => left.net.accepted = line.net.accepted)
      fun _ left => left.net.accepted = line.net.accepted := by
    by_cases huse : ∃ path, request = .use path
    · obtain ⟨path, rfl⟩ := huse
      exact answer_use_meets
        ((hsend [.use path] false).bind fun _ => .ofExcept (fun _ _ _ h => h) fun _ _ h => h)
        fun _ hleft => hleft
    · exact answer_meets_of_send (fun path hpath => huse ⟨path, hpath⟩)
        (fun _ hline => hline ▸ rfl) (fun _ hline => hline ▸ rfl) hsend
  cases result with
  | ok a => exact hanswer.ok rfl h
  | error halt => exact hanswer.halt rfl h

/-- A stream that is opened by a call on a connection is prepared under the settings of the
connection, whatever is asked of it. -/
theorem prepared_of_answer {conn : Connection} {net : Network} {after : Line}
    {result : Except Halt Answer} (hfits : conn.Fits) (hnet : net.Numbered)
    (h : answer request ⟨conn, net⟩ = (result, after)) {stream : Nat}
    (hle : net.accepted ≤ stream) (hlt : stream < after.net.accepted) :
    conn.config.PreparedBy stream (after.net.sentOn stream) := by
  cases hstream : conn.stream with
  | some current =>
    have haccepted := accepted_of_answer hstream h
    dsimp only at haccepted
    omega
  | none =>
    -- Without a stream the record begins here: every stream that is opened is one of this call.
    have hready : Line.Ready conn.config net.accepted [] conn.config.defaultNamespace []
        ⟨conn, net⟩ := ⟨⟨records_nil hnet, rfl, hfits⟩, .of_none hstream []⟩
    have hafter : ∃ opened, after.Ready conn.config net.accepted
        ([] ++ List.replicate opened conn.config.defaultNamespace)
        (selectedBy conn.config.defaultNamespace request result) [] := by
      cases result with
      | ok a => exact (answer_meets request).ok hready h
      | error halt => exact (answer_meets request).halt hready h
    obtain ⟨opened, hkeeps, -⟩ := hafter
    have hrecords := hkeeps.records
    rw [List.nil_append] at hrecords
    exact hrecords.preparedBy hle hlt

/-- A stream that is opened for a new connection is prepared under the settings that the
connection is opened with, whether that succeeds or not. -/
theorem prepared_of_establish {net after : Network} {result : Except Halt Connection}
    (hnet : net.Numbered) (h : establish config net = (result, after)) {stream : Nat}
    (hle : net.accepted ≤ stream) (hlt : stream < after.accepted) :
    config.PreparedBy stream (after.sentOn stream) := by
  obtain ⟨-, opened, hrecords⟩ := establish_records hnet h
  exact hrecords.preparedBy hle hlt

end Connection

end StoreClient
