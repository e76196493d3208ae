import StoreClient.Proofs.Lifetimes
import StoreClient.Proofs.Drafts

/-!
# Refused packets leave no trace

A packet that is cancelled, empty, or has an action that cannot be sent is refused before anything
is written. The buffer of the connection may hold the actions that came before the refused one, so
"no trace" is a statement about two runs: whatever is done with the connection afterwards, it
answers, and writes to its stream, as it would have done without the refused packet.
-/

namespace StoreClient

/-- Why a packet is refused. First it is looked at whether the packet is cancelled, then whether it
has actions, and then its actions are looked at in order. -/
inductive Packet.Refused (flags : CancellationFlags) (packet : Packet) : Error → Prop where
  | cancelled : packet.isCancelled flags = true → Refused flags packet .cancelled
  | empty : packet.isCancelled flags = false → packet.actions = [] →
      Refused flags packet .emptyPacket
  /-- The first action that cannot be sent says why. -/
  | unsendable {before behind : List Action} {action : Action} {e : EncodeError} :
      packet.isCancelled flags = false → packet.actions = before ++ action :: behind →
      Sendable before → action.append [] = .error e → Refused flags packet (.encode e)

namespace Packet

variable {flags : CancellationFlags} {packet : Packet}

/-- Among actions of which one cannot be sent, there is a first one. -/
theorem exists_first_unsendable {actions : List Action}
    (h : ∃ action ∈ actions, ∃ e, action.append [] = .error e) :
    ∃ before action behind e, actions = before ++ action :: behind ∧ Sendable before ∧
      action.append [] = .error e := by
  induction actions with
  | nil => simp at h
  | cons first rest ih =>
    cases hfirst : first.append [] with
    | error e => exact ⟨[], first, rest, e, rfl, nofun, hfirst⟩
    | ok bytes =>
      have hrest : ∃ action ∈ rest, ∃ e, action.append [] = .error e := by
        simpa [hfirst] using h
      obtain ⟨before, action, behind, e, rfl, hbefore, haction⟩ := ih hrest
      exact ⟨first :: before, action, behind, e, rfl,
        List.forall_mem_cons.mpr ⟨⟨bytes, hfirst⟩, hbefore⟩, haction⟩

/-- A packet that is cancelled, empty, or has an action that cannot be sent is refused. -/
theorem exists_refused (h : packet.isCancelled flags = true ∨ packet.actions = [] ∨
    ∃ action ∈ packet.actions, ∃ e, action.append [] = .error e) :
    ∃ e, packet.Refused flags e := by
  cases hcancelled : packet.isCancelled flags with
  | true => exact ⟨_, .cancelled hcancelled⟩
  | false =>
    rcases h with h | hempty | hfailing
    · simp [hcancelled] at h
    · exact ⟨_, .empty hcancelled hempty⟩
    · obtain ⟨before, action, behind, e, hactions, hbefore, haction⟩ :=
        exists_first_unsendable hfailing
      exact ⟨_, .unsendable hcancelled hactions hbefore haction⟩

/-- A refused packet fails, and changes nothing, on a connection that is open and waits for no
answer. -/
theorem Refused.sendPacket_eq {line : Line} {e : Error} (h : packet.Refused flags e)
    (hopen : line.conn.isClosed = false) (hinFlight : line.conn.inFlight = false) :
    Connection.sendPacket packet flags line = (.error (.failed e), line) := by
  cases h with
  | cancelled hcancelled =>
    rw [Connection.sendPacket, hcancelled]
    rfl
  | empty hcancelled hempty =>
    rw [Connection.sendPacket, hcancelled, hempty]
    rfl
  | unsendable hcancelled hactions hbefore haction =>
    have hactions' : packet.actions ≠ [] := by simp [hactions]
    rw [Connection.sendPacket, hcancelled, Connection.send_of_open hopen hinFlight hactions',
      hactions, Connection.exchange_eq, hbefore.encode_eq_error haction]

end Packet

namespace Station

open Connection

/-- One operation after the other leads from a station to another one, with these answers to what
was asked. What is left in the buffer by a call that was dropped is left open. -/
inductive Runs (station : Station) :
    List Operation → List (Except Halt Answer) → Station → Prop where
  | start : Runs station [] [] station
  | asked {operations : List Operation} {results : List (Except Halt Answer)} {request : Request}
      {middle after : Station} {result : Except Halt Answer} :
      Runs station operations results middle → Does (answer request) middle result after →
      Runs station (operations ++ [.ask request]) (results ++ [result]) after
  | dropped {operations : List Operation} {results : List (Except Halt Answer)}
      {middle after : Station} :
      Runs station operations results middle → middle.line.Drops after.line →
      Runs station (operations ++ [.drop]) results after

/-- Stations that differ in their buffers only run alike. -/
theorem Runs.alike {station other after : Station} {operations : List Operation}
    {results : List (Except Halt Answer)} (h : Runs station operations results after)
    (hline : other.line = station.line) :
    ∃ left, Runs other operations results left ∧ left.line = after.line := by
  -- The two runs may draft in different buffers, and stand on the same line after each operation.
  induction h with
  | start => exact ⟨other, .start, hline⟩
  | @asked _ _ request middle after result _ hdoes ih =>
    obtain ⟨twin, htwin, hmiddle⟩ := ih
    obtain ⟨found, left, hleft⟩ := Carries.answer request twin
    have hsame := hleft.run_eq
    rw [hmiddle, hdoes.run_eq] at hsame
    obtain ⟨rfl, hafter⟩ := Prod.mk.inj hsame
    exact ⟨left, htwin.asked hleft, hafter.symm⟩
  | @dropped _ _ middle after _ hdrops ih =>
    obtain ⟨twin, htwin, hmiddle⟩ := ih
    exact ⟨after, htwin.dropped (hmiddle ▸ hdrops), rfl⟩

end Station

namespace Connection

variable {config : Config} {net opened : Network} {conn : Connection} {line : Line}
  {operations : List Operation} {packet : Packet} {flags : CancellationFlags}

/-- A packet that is cancelled, empty, or has an action that cannot be sent leaves no trace on an
open connection. It is refused for the first of these reasons, and the connection and the network
are what they were, so nothing is written. Whatever the buffer of the connection holds, and whatever
the refused packet leaves in it: what is asked afterwards gets the answers, and leaves the
connection and the network, as if there had been no such packet. -/
theorem refused_packet_leaves_no_trace
    (hopen : establish config net = (.ok conn, opened))
    (hrun : Line.Reaches ⟨conn, opened⟩ operations line) (hline : line.conn.isClosed = false)
    (hpacket : packet.isCancelled flags = true ∨ packet.actions = [] ∨
      ∃ action ∈ packet.actions, ∃ e, action.append [] = .error e) :
    ∃ e, packet.Refused flags e ∧ sendPacket packet flags line = (.error (.failed e), line) ∧
      ∀ draft, (∃ result after, Station.Does (sendPacket packet flags) ⟨line, draft⟩ result after) ∧
        ∀ result after, Station.Does (sendPacket packet flags) ⟨line, draft⟩ result after →
          result = .error (.failed e) ∧ after.line = line ∧
          ∀ more results last,
            (∃ left, after.Runs more results left ∧ left.line = last) ↔
              ∃ left, Station.Runs ⟨line, draft⟩ more results left ∧ left.line = last := by
  obtain ⟨shut, hsound, -⟩ := sound_of_reaches hrun (sound_of_establish hopen)
  obtain ⟨e, hrefused⟩ := Packet.exists_refused hpacket
  have hsend := hrefused.sendPacket_eq hline (hsound.of_open hline).2
  refine ⟨e, hrefused, hsend, fun draft => ⟨Station.Carries.send _ _ ⟨line, draft⟩, ?_⟩⟩
  intro result after hdoes
  have hsame := hdoes.run_eq
  rw [hsend] at hsame
  obtain ⟨hresult, hafter⟩ := Prod.mk.inj hsame
  refine ⟨hresult.symm, hafter.symm, fun more results last => ⟨?_, ?_⟩⟩
  · rintro ⟨left, hruns, rfl⟩
    exact hruns.alike hafter
  · rintro ⟨left, hruns, rfl⟩
    exact hruns.alike hafter.symm

/-- The second of three actions is a null, and the third one cannot be sent either. The first one
stood in the buffer already. -/
theorem refused_packet_leaves_no_trace_null :
    let packet : Packet := ⟨[.get "k", .set "k" .null, .set "k" (.unsupported 7)], none⟩
    ∃ conn opened, establish reconnecting silentServer = (.ok conn, opened) ∧
      conn.isClosed = false ∧ packet.Refused .empty (.encode (.nullElement .any)) ∧
      ∀ draft result after, Station.Does (sendPacket packet .empty) ⟨⟨conn, opened⟩, draft⟩
        result after → result = .error (.failed (.encode (.nullElement .any))) ∧
          after.line = ⟨conn, opened⟩ := by
  intro packet
  have hstays : (match establish reconnecting silentServer with
      | (.ok conn, _) => conn.isClosed
      | (.error _, _) => true) = false := by
    decide +kernel
  cases hopen : establish reconnecting silentServer with
  | mk result opened =>
    rw [hopen] at hstays
    cases result with
    | error halt => cases hstays
    | ok conn =>
      have hget : ∃ bytes, (Action.get "k").append [] = .ok bytes := ⟨_, by rfl⟩
      have hnull : (Action.set "k" .null).append [] = .error (.nullElement .any) := by rfl
      have hsplit : packet.actions =
          [.get "k"] ++ .set "k" .null :: [.set "k" (.unsupported 7)] := rfl
      have hrefused : packet.Refused .empty (.encode (.nullElement .any)) :=
        .unsendable rfl hsplit (List.forall_mem_singleton.mpr hget) hnull
      have hpacket : packet.isCancelled .empty = true ∨ packet.actions = [] ∨
          ∃ action ∈ packet.actions, ∃ e, action.append [] = .error e :=
        .inr (.inr ⟨_, .tail _ (.head _), _, hnull⟩)
      obtain ⟨e, -, hsend, hstation⟩ :=
        refused_packet_leaves_no_trace hopen .start hstays hpacket
      have hinFlight := ((sound_of_establish hopen).of_open hstays).2
      cases hsend.symm.trans (hrefused.sendPacket_eq hstays hinFlight)
      refine ⟨conn, opened, rfl, hstays, hrefused, fun draft result after hdoes => ?_⟩
      obtain ⟨hresult, hafter, -⟩ := (hstation draft).2 result after hdoes
      exact ⟨hresult, hafter⟩

end Connection

end StoreClient
