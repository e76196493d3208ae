import StoreClient.Pool

/-!
# Lending from a pool

A desk keeps what is going on around a pool: the members that are lent, by the
name of their borrower, and the calls that wait. Whatever is done at the desk, the
waiting calls are then continued, the oldest first, until none of them can go on.
-/

namespace StoreClient

/-- Every visit of a broadcast leaves fewer targets. -/
theorem Broadcast.targets_length_lt {broadcast after : Broadcast} {pool rest : Pool}
    {member : Member} (h : broadcast.next pool = .visit member after rest) :
    after.targets.length < broadcast.targets.length := by
  unfold Broadcast.next at h
  split at h
  · cases h
  · split at h
    · cases h
    · simp only at h
      split at h
      · rename_i found hfound
        have hmem := List.find?_some hfound
        simp only [Turn.visit.injEq] at h
        obtain ⟨rfl, rfl, _⟩ := h
        refine Nat.lt_of_lt_of_le ?_ (List.length_filter_le (fun id => pool.live.contains id) _)
        rw [List.length_filter_lt_length_iff_exists]
        exact ⟨found.id, List.contains_iff_mem.1 hmem, by simp⟩
      · split at h <;> cases h

namespace Desk

/-- A call that waits. -/
inductive Waiting where
  /-- For a member to come back, or for room. -/
  | borrow (wouldWait : Bool)
  /-- For a server that stays silent while a member is opened. Its room stays taken. -/
  | opening
  /-- For the targets of a broadcast that are lent. -/
  | broadcast (broadcast : Broadcast) (request : Request) (visits : List (Except Error Answer))
  /-- For a member, to ask it this one thing. -/
  | once (request : Request)

/-- What comes of something done at the desk. -/
inductive Outcome where
  | done
  | failed (e : Error)
  /-- A member was lent under the borrower's name. -/
  | lent (id : Nat)
  | answered (answer : Answer)
  /-- A broadcast ended, after these visits. -/
  | visited (visits : List (Except Error Answer)) (result : Except Error Unit)
  /-- The call waits. -/
  | pending
  /-- The call was given up, because the server stays silent. -/
  | abandoned
  /-- Nothing is lent under the name. -/
  | noHandle
  /-- So many waiting calls were dropped. -/
  | dropped (n : Nat)

/-- Something to do at the desk. -/
inductive Task where
  | borrow (name : String) (wouldWait : Bool)
  | release (name : String)
  /-- Ask something of a lent connection. -/
  | ask (name : String) (request : Request)
  /-- Ask something of every connection that is open now. -/
  | askEach (name : String) (request : Request)
  | dropWaiting (name : String)
  /-- Select a namespace on every member, and for new ones. -/
  | useNamespace (path : String)
  /-- Log every member in, and new ones. -/
  | login (credentials : Credentials)
  /-- Borrow a connection for one request. -/
  | once (request : Request)
  | close
  | stopListening

end Desk

/-- A pool on its network, with its borrowers. -/
structure Desk where
  pool : Pool
  net : Network
  /-- The lent members, by the names of their borrowers. -/
  lent : List (String × Member)
  /-- The calls that wait, the oldest first. -/
  waiting : List (String × Desk.Waiting)

namespace Desk

/-- The member that is lent under a name. -/
def member? (desk : Desk) (name : String) : Option Member :=
  (desk.lent.find? (·.1 = name)).map Prod.snd

/-- Forget what is lent under a name. -/
def forget (desk : Desk) (name : String) : Desk :=
  { desk with lent := desk.lent.filter (·.1 ≠ name) }

/-- Take back the member that is lent under a name. -/
def giveBack (desk : Desk) (name : String) : Desk :=
  match desk.member? name with
  | some member => { desk.forget name with pool := desk.pool.release member }
  | none => desk

/-- Lend a member under a name. A member that was lent under it comes back. -/
def lend (desk : Desk) (name : String) (member : Member) : Desk :=
  let desk := desk.giveBack name
  { desk with lent := desk.lent ++ [(name, member)] }

/-- How the attempt to borrow ended. -/
inductive Borrowed where
  | lent (member : Member)
  | failed (e : Error)
  | waits
  /-- The server stays silent while a member is opened. -/
  | opening

/-- Open a member in room that the pool has kept. -/
def openMember (desk : Desk) : Borrowed × Desk :=
  match Connection.establish desk.pool.template desk.net with
  | (.ok conn, net) =>
    match desk.pool.enroll conn with
    | (.ok member, pool) => (.lent member, { desk with pool, net })
    | (.error e, pool) => (.failed e, { desk with pool, net })
  | (.error (.failed e), net) => (.failed e, { desk with pool := desk.pool.unreserve, net })
  | (.error .stalled, net) => (.opening, { desk with net })

/-- Borrow a member, opening one if there is room. -/
def borrow (desk : Desk) (wouldWait : Bool) : Borrowed × Desk :=
  match desk.pool.borrow wouldWait with
  | .refused => (.failed .poolClosed, desk)
  | .lent member pool => (.lent member, { desk with pool })
  | .reserved pool => openMember { desk with pool }
  | .waits => (.waits, desk)

/-- How a call goes on: it ends, or it waits further. -/
inductive Attempt where
  | ended (outcome : Outcome)
  | waits (waiting : Waiting)

/-- End a broadcast: the members that it holds come back. -/
def endBroadcast (desk : Desk) (broadcast : Broadcast) : Desk :=
  { desk with pool := desk.pool.releaseAll broadcast.held }

/-- Continue a broadcast as far as it goes. -/
def continueBroadcast (desk : Desk) (request : Request) (visits : List (Except Error Answer))
    (broadcast : Broadcast) : Attempt × Desk :=
  match _h : broadcast.next desk.pool with
  | .finished => (.ended (.visited visits (.ok ())), desk.endBroadcast broadcast)
  | .refused => (.ended (.visited visits (.error .poolClosed)), desk.endBroadcast broadcast)
  | .waits broadcast => (.waits (.broadcast broadcast request visits), desk)
  | .visit member after pool =>
    let (result, line) := Connection.answer request ⟨member.conn, desk.net⟩
    let desk : Desk := { desk with pool, net := line.net }
    let held := after.hold { member with conn := line.conn }
    match result with
    | .ok answer => desk.continueBroadcast request (visits ++ [.ok answer]) held
    | .error (.failed e) =>
      (.ended (.visited (visits ++ [.error e]) (.error e)), desk.endBroadcast held)
    | .error .stalled =>
      -- The call is dropped in front of what the broadcast holds, so its member comes back first.
      let returned := { member with conn := line.conn } :: after.held
      (.ended .abandoned, { desk with pool := desk.pool.releaseAll returned })
  termination_by broadcast.targets.length
  decreasing_by
    change after.targets.length < _
    exact Broadcast.targets_length_lt _h

/-- Give a waiting call up: what it holds comes back. -/
def abandon (desk : Desk) : Waiting → Desk
  | .borrow _ | .once _ => desk
  | .opening => { desk with pool := desk.pool.unreserve }
  | .broadcast broadcast _ _ => desk.endBroadcast broadcast

/-- Borrow a member for one request. -/
def once (desk : Desk) (request : Request) : Attempt × Desk :=
  match desk.borrow false with
  | (.lent member, desk) =>
    let (result, line) := Connection.answer request ⟨member.conn, desk.net⟩
    let desk : Desk :=
      { desk with net := line.net, pool := desk.pool.release { member with conn := line.conn } }
    match result with
    | .ok answer => (.ended (.answered answer), desk)
    | .error (.failed e) => (.ended (.failed e), desk)
    | .error .stalled => (.ended .abandoned, desk)
  | (.failed e, desk) => (.ended (.failed e), desk)
  | (.waits, desk) => (.waits (.once request), desk)
  | (.opening, desk) => (.ended .abandoned, desk.abandon .opening)

/-- Start or continue a call that may wait. -/
def attempt (desk : Desk) (name : String) : Waiting → Attempt × Desk
  | .borrow wouldWait =>
    match desk.borrow wouldWait with
    | (.lent member, desk) => (.ended (.lent member.id), desk.lend name member)
    | (.failed e, desk) => (.ended (.failed e), desk)
    | (.waits, desk) => (.waits (.borrow wouldWait), desk)
    | (.opening, desk) => (.waits .opening, desk)
  | .opening => (.waits .opening, desk)
  | .broadcast broadcast request visits => desk.continueBroadcast request visits broadcast
  | .once request => desk.once request

/-- Start a call. It is kept if it has to wait. -/
def begin (desk : Desk) (name : String) (waiting : Waiting) : Outcome × Desk :=
  match desk.attempt name waiting with
  | (.ended outcome, desk) => (outcome, desk)
  | (.waits waiting, desk) => (.pending, { desk with waiting := desk.waiting ++ [(name, waiting)] })

/-- Give the waiting calls of a name up. -/
def dropWaiting (desk : Desk) (name : String) : Outcome × Desk :=
  let dropped := desk.waiting.filter (·.1 = name)
  let kept := { desk with waiting := desk.waiting.filter (·.1 ≠ name) }
  (.dropped dropped.length, dropped.foldl (fun desk call => desk.abandon call.2) kept)

/-- Ask something of the connection that is lent under a name. -/
def ask (desk : Desk) (name : String) (request : Request) : Outcome × Desk :=
  match desk.member? name with
  | none => (.noHandle, desk)
  | some member =>
    let (result, line) := Connection.answer request ⟨member.conn, desk.net⟩
    let lent := desk.lent.map fun entry =>
      if entry.1 = name then (name, { member with conn := line.conn }) else entry
    let desk := { desk with net := line.net, lent }
    match result with
    | .ok answer => (.answered answer, desk)
    | .error (.failed e) => (.failed e, desk)
    | .error .stalled => (.abandoned, desk)

/-- The name under which the pool itself makes its calls. -/
def ownName : String := ""

/-- What a broadcast of the pool itself says of its visits: only how they ended. -/
def Outcome.plain : Outcome → Outcome
  | .visited _ (.ok ()) => .done
  | .visited _ (.error e) => .failed e
  | outcome => outcome

/-- Ask something of every member that is open now, in the name of the pool. -/
def askAll (desk : Desk) (request : Request) : Outcome × Desk :=
  let (outcome, desk) := desk.begin ownName (.broadcast (.start desk.pool) request [])
  (outcome.plain, desk)

/-- Do a task, and leave the waiting calls alone. -/
def perform (desk : Desk) : Task → Outcome × Desk
  | .borrow name wouldWait => desk.begin name (.borrow wouldWait)
  | .release name =>
    match desk.member? name with
    | some _ => (.done, desk.giveBack name)
    | none => (.noHandle, desk)
  | .ask name request => desk.ask name request
  | .askEach name request => desk.begin name (.broadcast (.start desk.pool) request [])
  | .dropWaiting name => desk.dropWaiting name
  | .useNamespace path => askAll { desk with pool := desk.pool.withNamespace path } (.use path)
  | .login credentials =>
    askAll { desk with pool := desk.pool.withLogin credentials }
      (.login credentials.username credentials.token)
  | .once request => desk.begin ownName (.once request)
  | .close => (.done, { desk with pool := desk.pool.close })
  | .stopListening => (.done, { desk with net := desk.net.stopListening })

/-- Continue the waiting calls in turn until one ends. Answers with the one that
ended. `before` are the calls that were continued already and wait further. -/
def continueOne (desk : Desk) (before : List (String × Waiting)) :
    List (String × Waiting) → Option (String × Outcome) × Desk
  | [] => (none, { desk with waiting := before })
  | (name, waiting) :: rest =>
    match desk.attempt name waiting with
    | (.ended outcome, desk) => (some (name, outcome), { desk with waiting := before ++ rest })
    | (.waits waiting, desk) => desk.continueOne (before ++ [(name, waiting)]) rest

/-- Continue the waiting calls until none ends any more, at most `n` of them. -/
def continueMany (desk : Desk) : Nat → List (String × Outcome) × Desk
  | 0 => ([], desk)
  | n + 1 =>
    match desk.continueOne [] desk.waiting with
    | (none, desk) => ([], desk)
    | (some woken, desk) =>
      let (more, desk) := desk.continueMany n
      (woken :: more, desk)

/-- Do a task, then continue the waiting calls. Answers with the outcome and with the
calls that ended. -/
def run (desk : Desk) (task : Task) : Outcome × List (String × Outcome) × Desk :=
  let (outcome, desk) := desk.perform task
  let (woken, desk) := desk.continueMany desk.waiting.length
  (outcome, woken, desk)

/-- A desk with a pool without a connection. -/
def create (template : Config) (capacity : Nat) (net : Network) : Except Error Desk := do
  let pool ← Pool.create template capacity
  return ⟨pool, net, [], []⟩

/-- Open the first connection of a pool, so that bad settings show at once. -/
def warm (desk : Desk) : Except Halt Desk × Network :=
  match desk.borrow false with
  | (.lent member, desk) => (.ok { desk with pool := desk.pool.release member }, desk.net)
  | (.failed e, desk) => (.error (.failed e), desk.net)
  | (.waits, desk) | (.opening, desk) => (.error .stalled, desk.net)

end Desk

end StoreClient
