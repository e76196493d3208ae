import StoreClient.Connection.Request

/-!
# The pool

A pool lends open connections, one borrower at a time for each, and never has more
of them open than its capacity. A borrower gets the connection that is idle for
the longest time; else a new one, if there is room; else nothing until a
connection comes back. A connection that comes back closed is dropped.
-/

namespace StoreClient

/-- A connection that a pool has opened, with the number that it gave it. -/
structure Member where
  id : Nat
  conn : Connection

/-- A pool. The members that are lent are with their borrowers. -/
structure Pool where
  capacity : Nat
  /-- The settings of new connections. -/
  template : Config
  /-- The members that wait for a borrower, the longest waiting first. -/
  idle : List Member
  /-- The numbers of the open members, idle or lent. -/
  live : List Nat
  closed : Bool
  /-- The number of open members, and of those that are being opened. -/
  opened : Nat
  /-- The number of the next member. -/
  nextId : Nat

namespace Pool

/-- A pool without a connection. -/
def create (template : Config) (capacity : Nat) : Except Error Pool := do
  checkCapacity capacity
  return ⟨capacity, template, [], [], false, 0, 1⟩

/-- What a borrower gets. -/
inductive Rung where
  /-- The pool is closed. -/
  | refused
  /-- An idle member. -/
  | lent (member : Member) (pool : Pool)
  /-- Room for a new member, which the borrower has to open. -/
  | reserved (pool : Pool)
  /-- Nothing until a member comes back. -/
  | waits

/-- Borrow a member. A borrower that would rather wait never opens one. -/
def borrow (pool : Pool) (wouldWait : Bool) : Rung :=
  if pool.closed then .refused
  else
    match pool.idle with
    | member :: rest => .lent member { pool with idle := rest }
    | [] =>
      if !wouldWait && pool.opened < pool.capacity then
        .reserved { pool with opened := pool.opened + 1 }
      else .waits

/-- Give back the room for a member that was not opened. -/
def unreserve (pool : Pool) : Pool := { pool with opened := pool.opened - 1 }

/-- Make a connection a member, in the room that was kept for it. It is dropped if the
pool was closed meanwhile. -/
def enroll (pool : Pool) (conn : Connection) : Except Error Member × Pool :=
  let numbered := { pool with nextId := pool.nextId + 1 }
  if pool.closed then (.error .poolClosed, numbered.unreserve)
  else (.ok ⟨pool.nextId, conn⟩, { numbered with live := pool.nextId :: pool.live })

/-- Take a member back. It is dropped if it is closed, or if the pool is. -/
def release (pool : Pool) (member : Member) : Pool :=
  if member.conn.isClosed || pool.closed then
    { pool with live := pool.live.erase member.id, opened := pool.opened - 1 }
  else { pool with idle := pool.idle ++ [member] }

/-- Take members back, one after the other. -/
def releaseAll (pool : Pool) (members : List Member) : Pool := members.foldl release pool

/-- Close the pool and the idle members. The lent ones are dropped when they come
back. -/
def close (pool : Pool) : Pool :=
  { pool with
    closed := true
    idle := []
    live := pool.live.filter fun id => !(pool.idle.map Member.id).contains id
    opened := pool.opened - pool.idle.length }

/-- Select a namespace for new members. -/
def withNamespace (pool : Pool) (path : String) : Pool :=
  { pool with template := { pool.template with defaultNamespace := some path } }

/-- Log new members in with these credentials. -/
def withLogin (pool : Pool) (login : Credentials) : Pool :=
  { pool with template := { pool.template with auth := some (.fixed login) } }

end Pool

/-- A broadcast under way: one call on every member that was open when it started. -/
structure Broadcast where
  /-- The members still to visit. -/
  targets : List Nat
  /-- The members that were visited, in order. They come back when it ends. -/
  held : List Member

namespace Broadcast

/-- A broadcast to every member of a pool. -/
def start (pool : Pool) : Broadcast := ⟨pool.live, []⟩

/-- How a broadcast goes on. -/
inductive Turn where
  /-- Every target was visited or is gone. -/
  | finished
  /-- The pool is closed, and targets are left. -/
  | refused
  /-- An idle target is visited. -/
  | visit (member : Member) (broadcast : Broadcast) (pool : Pool)
  /-- The targets that are left are all lent. -/
  | waits (broadcast : Broadcast)

/-- The next turn of a broadcast. Targets that were dropped are forgotten. -/
def next (broadcast : Broadcast) (pool : Pool) : Turn :=
  if broadcast.targets.isEmpty then .finished
  else if pool.closed then .refused
  else
    let targets := broadcast.targets.filter pool.live.contains
    match pool.idle.find? fun member => targets.contains member.id with
    | some member =>
      .visit member { broadcast with targets := targets.filter (· ≠ member.id) }
        { pool with idle := pool.idle.eraseP fun other => targets.contains other.id }
    | none => if targets.isEmpty then .finished else .waits { broadcast with targets }

/-- A visited member is kept until the broadcast ends. -/
def hold (broadcast : Broadcast) (member : Member) : Broadcast :=
  { broadcast with held := broadcast.held ++ [member] }

end Broadcast

end StoreClient
