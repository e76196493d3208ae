import StoreClient.Connection
import StoreClient.Proofs.Wording

/-!
# Sessions

A session is what may happen on one stream. It begins with the preparing actions, each sent
after the one before was accepted, and goes on with the packets of the owner. It is over with
the first exchange that fails, and with the first preparing action that is refused. Each
batch is what its actions say, and the answers are read from the bytes of this stream alone.
-/

namespace StoreClient

/-- The stream that an event is about. -/
def Event.stream : Event → Nat
  | .accepted stream => stream
  | .sent stream _ => stream
  | .received stream _ => stream
  | .judged stream _ => stream
  | .halted stream => stream

/-- What happened on a stream, in order. -/
def Network.logOf (net : Network) (stream : Nat) : List Event :=
  net.events.filter (·.stream = stream)

/-- The settings with this namespace. -/
def Config.selecting (config : Config) (path : Option String) : Config :=
  { config with defaultNamespace := path }

/-- The preparing actions that were not sent yet, in order. Where credentials are asked for and
not given, there is the error instead of an action. -/
abbrev Due := List (Except Error Action)

namespace Due

/-- Logging in with what the provider answers when so many streams have been opened. -/
def login (provider : AuthProvider) (opened : Nat) : Except Error Action :=
  (provider.answer opened).map fun login => .login login.username login.token

/-- The actions that prepare the stream which is opened last when so many have been opened: asking
for the version of the protocol, logging in if there is a provider, and selecting the namespace if
there is one. -/
def ofConfig (config : Config) (opened : Nat) : Due :=
  .ok (.sysInfo .protocol) ::
    ((config.auth.toList.map fun provider => login provider opened) ++
      config.defaultNamespace.toList.map fun path => .ok (.use path))

/-- These actions may be sent in one batch: the preparing action that is due, and any actions
when none is due any more. -/
def Allows : Due → List Action → Prop
  | [], _ => True
  | .ok action :: _, actions => actions = [action]
  | .error _ :: _, _ => False

/-- The value of a preparing action that is accepted: the version is the one that this client
implements, and the others are answered with the code okay. -/
inductive Suits : Action → Value → Prop where
  | version : Suits (.sysInfo .protocol) (.string protocolVersion)
  | login (username token : String) : Suits (.login username token) (.code .okay)
  | use (path : String) : Suits (.use path) (.code .okay)

/-- The entries accept the preparing action that is due, if one is: there is one entry, nothing is
wrong with it, and its value suits. -/
def AcceptedBy (due : Due) (entries : List Entry) : Prop :=
  ∀ action later, due = .ok action :: later →
    ∃ entry, entries = [entry] ∧ entry.error = none ∧ Suits action entry.value

end Due

/-- A stream that was opened with these settings served every exchange so far: the reader that
it has now, the preparing actions that are still due, and the log of the stream. A reader that
starts empty with the stream reads the answers from what is received on it. -/
inductive Served (stream : Nat) (config : Config) : Reader → Due → List Event → Prop where
  | opened : Served stream config (.start config.maxResponseSize) (.ofConfig config (stream + 1))
      [.accepted stream]
  | exchanged {reader : Reader} {due : Due} {log : List Event} {actions : List Action}
      {batch : Bytes} {ended : Bool} {taken : List Arrival} {entries : List Entry} :
      Served stream config reader due log →
      due.Allows actions → Packet.Says actions batch →
      Connection.answered actions (reader.read ended taken).outcome = .ok entries →
      due.AcceptedBy entries →
      Served stream config (reader.read ended taken).reader due.tail
        (log ++ [.sent stream batch, .received stream taken, .judged stream entries])

/-- The log of a stream that was opened with these settings. Nothing follows an exchange that
fails or is given up, or a preparing action that is refused. -/
inductive Session (stream : Nat) (config : Config) : List Event → Prop where
  /-- Every exchange was served. -/
  | served {reader : Reader} {due : Due} {log : List Event} :
      Served stream config reader due log → Session stream config log
  /-- A preparing action was answered, and not accepted. -/
  | refused {reader : Reader} {due : Due} {log : List Event} {actions : List Action}
      {batch : Bytes} {ended : Bool} {taken : List Arrival} {entries : List Entry} :
      Served stream config reader due log →
      due.Allows actions → Packet.Says actions batch →
      Connection.answered actions (reader.read ended taken).outcome = .ok entries →
      ¬ due.AcceptedBy entries →
      Session stream config
        (log ++ [.sent stream batch, .received stream taken, .judged stream entries])
  /-- A batch was sent, and its answer was not read. -/
  | unanswered {reader : Reader} {due : Due} {log : List Event} {actions : List Action}
      {batch : Bytes} {ended : Bool} {taken : List Arrival} {halt : Halt} :
      Served stream config reader due log →
      due.Allows actions → Packet.Says actions batch →
      Connection.answered actions (reader.read ended taken).outcome = .error halt →
      Session stream config (log ++ [.sent stream batch, .received stream taken, .halted stream])
  /-- A batch could not be written. -/
  | unwritten {reader : Reader} {due : Due} {log : List Event} {actions : List Action}
      {batch : Bytes} :
      Served stream config reader due log →
      due.Allows actions → Packet.Says actions batch →
      Session stream config (log ++ [.halted stream])

/-- A stream that served every exchange was not given up. -/
theorem Served.halted_not_mem {stream : Nat} {config : Config} {reader : Reader} {due : Due}
    {log : List Event} (h : Served stream config reader due log) (other : Nat) :
    Event.halted other ∉ log := by
  induction h with
  | opened => simp
  | exchanged _ _ _ _ _ ih => simp [ih]

/-- What ends with an item that is nowhere else has nothing behind that item. -/
theorem eq_nil_of_append_singleton {α : Type} {a : α} {front before behind : List α}
    (hnew : a ∉ front) (h : front ++ [a] = before ++ a :: behind) : behind = [] := by
  rcases List.eq_nil_or_concat behind with hnil | ⟨middle, last, rfl⟩
  · exact hnil
  · have hsplit : front ++ [a] = (before ++ a :: middle) ++ [last] := by
      rw [h, List.concat_eq_append, List.append_assoc, List.cons_append]
    have hfront := List.append_inj_left' hsplit rfl
    refine absurd ?_ hnew
    rw [hfront]
    exact List.mem_append_right before List.mem_cons_self

/-- Nothing happens on a stream after an exchange on it failed or was given up. -/
theorem Session.eq_nil_of_halted {stream : Nat} {config : Config} {before behind : List Event}
    {other : Nat} (h : Session stream config (before ++ .halted other :: behind)) :
    behind = [] := by
  generalize hlog : before ++ .halted other :: behind = log at h
  have hmem : Event.halted other ∈ log := by
    rw [← hlog]
    exact List.mem_append_right before List.mem_cons_self
  cases h with
  | served hserved => exact absurd hmem (hserved.halted_not_mem other)
  | refused hserved => simp [hserved.halted_not_mem] at hmem
  | @unanswered _ _ log _ batch _ taken _ hserved =>
    obtain rfl : other = stream := by simpa [hserved.halted_not_mem] using hmem
    have hnew : Event.halted other ∉ log ++ [.sent other batch, .received other taken] := by
      simp [hserved.halted_not_mem]
    have hsplit : (log ++ [.sent other batch, .received other taken]) ++ [.halted other] =
        before ++ .halted other :: behind := by
      rw [hlog, List.append_assoc]
      rfl
    exact eq_nil_of_append_singleton hnew hsplit
  | unwritten hserved =>
    obtain rfl : other = stream := by simpa [hserved.halted_not_mem] using hmem
    exact eq_nil_of_append_singleton (hserved.halted_not_mem other) hlog.symm

namespace Reader

/-- What a poll can come to: it takes a batch, finds a broken one, or lacks bytes, and then it
depends on the limit whether it wants more. -/
inductive Polls (reader : Reader) : Poll → Prop where
  | batch {entries : List Entry} {size : Nat} :
      Batch.decode reader.buffer = .complete entries size →
      Polls reader
        (.batch entries { reader with buffer := reader.buffer.drop size, scan := .start })
  | broken {failure : FailedRead} : Batch.decode reader.buffer = .broken failure →
      Polls reader (.failed failure reader.reset)
  | full : reader.limit ≤ reader.buffer.length →
      Polls reader
        (.failed (reader.abort (.protocol (.responseTooLarge reader.limit))) reader.reset)
  | wanting {scan : Scan} : reader.buffer.length < reader.limit →
      Polls reader (.wanting { reader with scan })

/-- Whether a reader that lacks bytes wants more depends on its limit alone. -/
theorem polls_wait (reader : Reader) (scan : Scan) : reader.Polls (wait { reader with scan }) := by
  unfold wait
  split
  · rename_i hfull
    exact .full hfull
  · rename_i hbelow
    exact .wanting (Nat.not_le.mp hbelow)

/-- A poll comes to one of these. -/
theorem polls_of_poll_eq {reader : Reader} {poll : Poll} (h : reader.poll = poll) :
    reader.Polls poll := by
  subst h
  unfold Reader.poll
  split
  · exact polls_wait reader _
  · split
    · exact .batch ‹_›
    · exact .broken ‹_›
    · exact polls_wait reader _

/-- The reader that is left by a poll. -/
def Poll.reader : Poll → Reader
  | .batch _ after => after
  | .failed _ after => after
  | .wanting after => after

/-- A poll keeps the limit of the reader. -/
theorem limit_of_poll_eq {reader : Reader} {poll : Poll} (h : reader.poll = poll) :
    poll.reader.limit = reader.limit := by
  cases polls_of_poll_eq h <;> rfl

/-- A poll that wants more bytes keeps those it has. -/
theorem buffer_of_poll {reader after : Reader} (h : reader.poll = .wanting after) :
    after.buffer = reader.buffer := by
  cases polls_of_poll_eq h
  rfl

/-- A read keeps the limit of the reader. -/
theorem limit_read (reader : Reader) (ended : Bool) (arrivals : List Arrival) :
    (reader.read ended arrivals).reader.limit = reader.limit := by
  fun_induction read reader ended arrivals with
  | case1 arrivals reader entries after hpoll => exact limit_of_poll_eq hpoll
  | case2 arrivals reader failure after hpoll => exact limit_of_poll_eq hpoll
  | case3 reader after hpoll hended => exact limit_of_poll_eq hpoll
  | case4 reader after hpoll hended => exact limit_of_poll_eq hpoll
  | case5 reader after hpoll rest => exact limit_of_poll_eq hpoll
  | case6 reader after hpoll kind rest => exact limit_of_poll_eq hpoll
  | case7 reader after hpoll chunk rest hne ih => exact ih.trans (limit_of_poll_eq hpoll)

/-- Bytes that arrive at a reader which wants more are put into its buffer. -/
theorem read_bytes {reader after : Reader} {chunk : Bytes} (hpoll : reader.poll = .wanting after)
    (hne : chunk ≠ []) (ended : Bool) (rest : List Arrival) :
    reader.read ended (.bytes chunk :: rest) =
      read { after with buffer := after.buffer ++ chunk } ended rest := by
  rw [read, hpoll]
  cases chunk with
  | nil => exact absurd rfl hne
  | cons byte chunk => rfl

/-- A read takes arrivals from the front, and what it does depends on those alone. -/
theorem read_taken (reader : Reader) (ended : Bool) (arrivals : List Arrival) :
    ∃ taken, arrivals = taken ++ (reader.read ended arrivals).arrivals ∧
      (reader.read ended taken).outcome = (reader.read ended arrivals).outcome ∧
      (reader.read ended taken).reader = (reader.read ended arrivals).reader := by
  fun_induction read reader ended arrivals with
  | case1 arrivals reader entries after hpoll =>
    refine ⟨[], rfl, ?_⟩
    rw [read, hpoll]
    exact ⟨rfl, rfl⟩
  | case2 arrivals reader failure after hpoll =>
    refine ⟨[], rfl, ?_⟩
    rw [read, hpoll]
    exact ⟨rfl, rfl⟩
  | case3 reader after hpoll hended =>
    refine ⟨[], rfl, ?_⟩
    rw [read, hpoll]
    simp [hended]
  | case4 reader after hpoll hended =>
    refine ⟨[], rfl, ?_⟩
    rw [read, hpoll]
    simp [hended]
  | case5 reader after hpoll rest =>
    refine ⟨[.bytes []], rfl, ?_⟩
    rw [read, hpoll]
    exact ⟨rfl, rfl⟩
  | case6 reader after hpoll kind rest =>
    refine ⟨[.failure kind], rfl, ?_⟩
    rw [read, hpoll]
    exact ⟨rfl, rfl⟩
  | case7 reader after hpoll chunk rest hne ih =>
    obtain ⟨taken, hrest, htaken⟩ := ih
    refine ⟨.bytes chunk :: taken, congrArg (Arrival.bytes chunk :: ·) hrest, ?_⟩
    rw [read_bytes hpoll hne]
    exact htaken

end Reader

/-- Events that are added in two parts. -/
theorem Network.record_record (net : Network) (events more : List Event) :
    (net.record events).record more = net.record (events ++ more) := by
  unfold record
  rw [List.append_assoc]

namespace Connection

/-- What is made of an entry once its action has judged it. -/
theorem result_judged (entry : Entry) (action : Action) :
    (judged entry action).result =
      match entry.error with
      | some e => .error e
      | none => (action.validate entry.value).map fun _ => entry.value := by
  obtain ⟨declared, value, error⟩ := entry
  unfold judged Entry.result
  cases error with
  | some e => rfl
  | none => cases action.validate value <;> rfl

/-- The value that one action is answered with is that of the only entry, and the action accepts
it. -/
theorem exists_of_answered {action : Action} {outcome : Reader.Outcome} {entries : List Entry}
    {value : Value} (h : answered [action] outcome = .ok entries)
    (hfirst : Response.first entries = .ok value) :
    action.accepts value = true ∧
      ∃ entry, entries = [entry] ∧ entry.error = none ∧ entry.value = value := by
  cases outcome with
  | failed failure => cases h
  | stalled => cases h
  | batch found =>
    rw [answered] at h
    split at h
    · rename_i hlength
      obtain ⟨entry, rfl⟩ := List.length_eq_one_iff.mp hlength
      cases h
      have hresult : (judged entry action).result = .ok value := hfirst
      constructor
      · rw [result_judged] at hresult
        split at hresult
        · cases hresult
        · unfold Action.validate at hresult
          split at hresult
          · cases hresult
            assumption
          · cases hresult
      · refine ⟨judged entry action, rfl, ?_⟩
        unfold Entry.result at hresult
        split at hresult
        · cases hresult
        · cases hresult
          exact ⟨by assumption, rfl⟩
    · cases h

/-- What comes of an exchange on a line: its result, and the line that it leaves. -/
inductive Exchanged (actions : List Action) (line : Line) : Except Halt (List Entry) → Line → Prop
  where
  /-- Nothing is sent: the actions cannot be, or there is no stream. -/
  | unsent (e : Error) : Exchanged actions line (.error (.failed e)) line
  /-- The batch cannot be written. -/
  | unwritten {stream : Stream} {batch : Bytes} {conn : Connection} (e : Error) :
      line.conn.stream = some stream → Packet.encode actions = .ok batch →
      conn.config = line.conn.config → conn.reader.limit = line.conn.reader.limit →
      conn.stream = none →
      Exchanged actions line (.error (.failed e)) ⟨conn, line.net.record [.halted stream.number]⟩
  /-- The answer is not read, or it is not one. -/
  | unanswered {stream : Stream} {batch : Bytes} {conn : Connection} {ended : Bool}
      {taken : List Arrival} {halt : Halt} :
      line.conn.stream = some stream → Packet.encode actions = .ok batch →
      conn.config = line.conn.config → conn.reader.limit = line.conn.reader.limit →
      conn.stream = none →
      answered actions (line.conn.reader.read ended taken).outcome = .error halt →
      Exchanged actions line (.error halt)
        ⟨conn, line.net.record
          [.sent stream.number batch, .received stream.number taken, .halted stream.number]⟩
  /-- The answer is read. -/
  | answered {stream after : Stream} {batch : Bytes} {conn : Connection} {ended : Bool}
      {taken : List Arrival} {entries : List Entry} :
      line.conn.stream = some stream → Packet.encode actions = .ok batch →
      conn.config = line.conn.config → conn.reader = (line.conn.reader.read ended taken).reader →
      conn.stream = some after → after.number = stream.number →
      Connection.answered actions (line.conn.reader.read ended taken).outcome = .ok entries →
      Exchanged actions line (.ok entries)
        ⟨conn, line.net.record
          [.sent stream.number batch, .received stream.number taken,
            .judged stream.number entries]⟩

/-- The front of a list, given what is behind it. -/
theorem take_of_eq_append {α : Type} {all front behind : List α} (h : all = front ++ behind) :
    all.take (all.length - behind.length) = front := by
  rw [h, List.length_append, Nat.add_sub_cancel, List.take_left]

/-- A stream keeps its number when it is written to. -/
theorem number_of_write {stream after : Stream} (h : stream.write = .ok after) :
    after.number = stream.number := by
  unfold Stream.write at h
  dsimp only at h
  split at h
  · cases h
  · cases h
    dsimp only
    split <;> rfl

/-- An exchange fails before anything is sent, when it writes, or when it reads, and closes the
connection in the last two cases; or it is answered. -/
theorem exchange_exchanged (actions : List Action) (line : Line) :
    Exchanged actions line (exchange actions line).1 (exchange actions line).2 := by
  unfold exchange
  split
  · exact .unsent _
  · rename_i batch hbatch
    split
    · exact .unsent _
    · rename_i stream hstream
      split
      · exact .unwritten _ hstream hbatch rfl rfl rfl
      · rename_i written hwritten
        have hnumber := number_of_write hwritten
        obtain ⟨taken, harrivals, houtcome, hreader⟩ :=
          line.conn.reader.read_taken written.ended written.inbound
        dsimp only
        rw [take_of_eq_append harrivals, hnumber]
        split
        · rename_i entries hentries
          rw [Network.record_record]
          exact .answered hstream hbatch rfl hreader.symm rfl rfl (houtcome ▸ hentries)
        · rename_i e hfailed
          rw [Network.record_record]
          exact .unanswered hstream hbatch rfl (Reader.limit_read _ _ _) rfl (houtcome ▸ hfailed)
        · rename_i hstalled
          rw [Network.record_record]
          exact .unanswered hstream hbatch rfl (Reader.limit_read _ _ _) rfl (houtcome ▸ hstalled)

end Connection

end StoreClient
