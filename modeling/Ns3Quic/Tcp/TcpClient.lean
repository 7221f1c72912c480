import Ns3Quic.Lib.Run
import Mathlib.Data.UInt
import Mathlib.Data.Int.Basic

/-!
# The TCP client

`TcpClient` writes a given number of bytes to its socket whenever the socket
tells it that there is space, and closes the socket after the last one.  The
socket belongs to the simulator: its state is arbitrary, changes between the
callbacks in any way, and answers the client's calls by functions of it.
Callbacks do not interrupt each other.
-/

namespace Ns3Quic.Tcp

open TransitionSystem

universe u

structure Socket (State : Type u) where
  getTxAvailable : State → UInt32
  /-- `Send` of so many bytes, with the value that it returns. -/
  send : State → UInt32 → Int32 × State
  close : State → State

variable {State : Type u}

/-- `Send` returns an error, or how many of the bytes it accepts, which is at least
one. -/
def Socket.AcceptsOrFails (socket : Socket State) : Prop :=
  ∀ state size, 0 < size →
    (socket.send state size).1 < 0 ∨
      1 ≤ (socket.send state size).1.toInt ∧ (socket.send state size).1.toInt ≤ size.toNat

inductive SocketCall where
  /-- `Send` of `toWrite` bytes when `GetTxAvailable` returns `available`. -/
  | send (currentTxBytes : UInt64) (available toWrite : UInt32) (ret : Int32)
  /-- `Close` in `NotifiSendData`. -/
  | close (currentTxBytes : UInt64)
  /-- `Close` in `StopApplication`. -/
  | stop
  deriving DecidableEq

def SocketCall.accepted : SocketCall → Nat
  | .send _ _ _ ret => ret.toInt.toNat
  | .close _ => 0
  | .stop => 0

def acceptedBytes (calls : List SocketCall) : Nat := (calls.map SocketCall.accepted).sum

structure TcpClient (State : Type u) where
  targetBytes : UInt64
  currentTxBytes : UInt64
  connected : Bool
  socket : State
  /-- The calls of the socket so far. -/
  calls : List SocketCall
  deriving DecidableEq

namespace TcpClient

/-- The constructor, with the socket that `StartApplication` creates. -/
def create (bytes : UInt64) (socket : State) : TcpClient State where
  targetBytes := bytes
  currentTxBytes := 0
  connected := false
  socket := socket
  calls := []

section Code

/- `segmentSize` is `kMSS`. -/
variable (socket : Socket State) (segmentSize : UInt32)

def toWrite (client : TcpClient State) : UInt32 :=
  let left := client.targetBytes - client.currentTxBytes
  let toWrite := (min segmentSize.toUInt64 left).toUInt32
  min toWrite (socket.getTxAvailable client.socket)

/-- The client after `Send` has returned `ret`, which is not yet counted. -/
def afterSend (client : TcpClient State) (ret : Int32) (state : State) : TcpClient State :=
  { client with
    socket := state
    calls := client.calls ++ [.send client.currentTxBytes
      (socket.getTxAvailable client.socket) (client.toWrite socket segmentSize) ret] }

/-- The body of the loop in `NotifiSendData`.  A failing `Send` returns from the
function, which is an error here. -/
def sendRound (client : TcpClient State) : Except (TcpClient State) (TcpClient State) :=
  let toWrite := client.toWrite socket segmentSize
  if 0 < toWrite then
    let (ret, state) := socket.send client.socket toWrite
    let sent := client.afterSend socket segmentSize ret state
    if ret < 0 then
      -- the client is called again when there is space
      .error sent
    else
      .ok { sent with currentTxBytes := sent.currentTxBytes + UInt64.ofInt ret.toInt }
  else
    .ok client

def closeIfDone (client : TcpClient State) : TcpClient State :=
  if client.targetBytes ≤ client.currentTxBytes then
    { client with
      socket := socket.close client.socket
      calls := client.calls ++ [.close client.currentTxBytes] }
  else
    client

/-- `NotifiSendData`, if its loop ends within `fuel` tests of the condition. -/
def notifiSendData : Nat → TcpClient State → Option (TcpClient State)
  | 0, _ => none
  | fuel + 1, client =>
      if client.currentTxBytes < client.targetBytes ∧
          0 < socket.getTxAvailable client.socket then
        match client.sendRound socket segmentSize with
        | .error returned => some returned
        | .ok next => notifiSendData fuel next
      else
        some (client.closeIfDone socket)

def connectionSucceeded (fuel : Nat) (client : TcpClient State) : Option (TcpClient State) :=
  notifiSendData socket segmentSize fuel { client with connected := true }

def onCanWrite (fuel : Nat) (client : TcpClient State) : Option (TcpClient State) :=
  if client.connected then notifiSendData socket segmentSize fuel client else some client

def stopApplication (client : TcpClient State) : TcpClient State :=
  { client with
    connected := false
    socket := socket.close client.socket
    calls := client.calls ++ [.stop] }

inductive Action (State : Type u) where
  | connectionSucceeded
  | onCanWrite
  | stopApplication
  /-- The simulator changes the socket. -/
  | network (socket : State)

def perform (fuel : Nat) (client : TcpClient State) : Action State → Option (TcpClient State)
  | .connectionSucceeded => client.connectionSucceeded socket segmentSize fuel
  | .onCanWrite => client.onCanWrite socket segmentSize fuel
  | .stopApplication => some (client.stopApplication socket)
  | .network state => some { client with socket := state }

def Step (client : TcpClient State) (action : Action State) (next : TcpClient State) : Prop :=
  ∃ fuel, client.perform socket segmentSize fuel action = some next

end Code

/-! ## Arithmetic of a round -/

theorem apply_min {Word : Type} [LE Word] [DecidableLE Word] {toNat : Word → Nat}
    (le_iff : ∀ {left right : Word}, left ≤ right ↔ toNat left ≤ toNat right)
    (left right : Word) :
    toNat (if left ≤ right then left else right) = min (toNat left) (toNat right) := by
  split
  next ordered => exact (min_eq_left (le_iff.mp ordered)).symm
  next unordered =>
    rw [le_iff, not_le] at unordered
    exact (min_eq_right unordered.le).symm

theorem toNat_min_uint32 (left right : UInt32) :
    (min left right).toNat = min left.toNat right.toNat :=
  apply_min UInt32.le_iff_toNat_le left right

theorem toNat_min_uint64 (left right : UInt64) :
    (min left right).toNat = min left.toNat right.toNat :=
  apply_min UInt64.le_iff_toNat_le left right

theorem toNat_toWrite (socket : Socket State) (segmentSize : UInt32) {client : TcpClient State}
    (within : client.currentTxBytes ≤ client.targetBytes) :
    (client.toWrite socket segmentSize).toNat =
      min (min segmentSize.toNat (client.targetBytes.toNat - client.currentTxBytes.toNat))
        (socket.getTxAvailable client.socket).toNat := by
  have small := segmentSize.toNat_lt
  unfold toWrite
  dsimp only
  rw [toNat_min_uint32, UInt64.toNat_toUInt32, toNat_min_uint64, UInt32.toNat_toUInt64,
    UInt64.toNat_sub_of_le _ _ within, Nat.mod_eq_of_lt]
  omega

theorem not_negative {ret : Int32} (positive : 1 ≤ ret.toInt) : ¬ret < 0 := by
  intro negative
  have below : ret.toInt < 0 := Int32.lt_iff_toInt_lt.mp negative
  omega

theorem toNat_add_ret (current target : UInt64) (ret : Int32) (positive : 0 ≤ ret.toInt)
    (fits : current.toNat + ret.toInt.toNat ≤ target.toNat) :
    (current + UInt64.ofInt ret.toInt).toNat = current.toNat + ret.toInt.toNat := by
  have bound := target.toNat_lt
  unfold UInt64.ofInt
  rw [UInt64.toNat_add, UInt64.toNat_ofNat']
  omega

/-! ## Calls of the socket -/

end TcpClient

/-- Every call has the property, given the calls before it. -/
def AtEveryCall (property : List SocketCall → SocketCall → Prop) (calls : List SocketCall) :
    Prop :=
  ∀ before call after, calls = before ++ call :: after → property before call

theorem atEveryCall_nil (property : List SocketCall → SocketCall → Prop) :
    AtEveryCall property [] := by
  intro before call after shape
  cases before <;> cases shape

theorem AtEveryCall.concat {property : List SocketCall → SocketCall → Prop}
    {calls : List SocketCall} {call : SocketCall} (earlier : AtEveryCall property calls)
    (now : property calls call) : AtEveryCall property (calls ++ [call]) := by
  intro before other after shape
  rcases List.eq_nil_or_concat after with rfl | ⟨later, last, rfl⟩
  · obtain ⟨rfl, same⟩ := List.append_inj' shape rfl
    rw [← List.singleton_injective same]
    exact now
  · rw [List.concat_eq_append, ← List.cons_append, ← List.append_assoc] at shape
    exact earlier before other later (List.append_inj' shape rfl).1

/-- What the calls have to be like: a `Send` asks for no more than a segment, the space
and the bytes left, and `NotifiSendData` closes the socket when it has accepted
everything. -/
def SocketCall.Allowed (segmentSize : UInt32) (bytes : UInt64) (before : List SocketCall) :
    SocketCall → Prop
  | .send currentTxBytes available toWrite _ =>
      currentTxBytes.toNat = acceptedBytes before ∧ toWrite ≤ segmentSize ∧ toWrite ≤ available ∧
        acceptedBytes before + toWrite.toNat ≤ bytes.toNat
  | .close currentTxBytes =>
      currentTxBytes.toNat = acceptedBytes before ∧ acceptedBytes before = bytes.toNat
  | .stop => True

@[simp]
theorem acceptedBytes_concat (calls : List SocketCall) (call : SocketCall) :
    acceptedBytes (calls ++ [call]) = acceptedBytes calls + call.accepted := by
  unfold acceptedBytes
  rw [List.map_append, List.sum_append, List.map_singleton, List.sum_singleton]

namespace TcpClient

/-- The state of a client between two calls of its socket. -/
structure Consistent (segmentSize : UInt32) (bytes : UInt64) (client : TcpClient State) :
    Prop where
  targetBytes : client.targetBytes = bytes
  counted : client.currentTxBytes.toNat = acceptedBytes client.calls
  within : client.currentTxBytes ≤ client.targetBytes
  allowed : AtEveryCall (SocketCall.Allowed segmentSize bytes) client.calls

variable {socket : Socket State} {segmentSize : UInt32} {bytes : UInt64}
  {client : TcpClient State}

theorem consistent_create (segmentSize : UInt32) (bytes : UInt64) (state : State) :
    (create bytes state).Consistent segmentSize bytes :=
  ⟨rfl, rfl, UInt64.zero_le, atEveryCall_nil _⟩

namespace Consistent

theorem allowed_send (consistent : client.Consistent segmentSize bytes) (socket : Socket State)
    (ret : Int32) :
    SocketCall.Allowed segmentSize bytes client.calls
      (.send client.currentTxBytes (socket.getTxAvailable client.socket)
        (client.toWrite socket segmentSize) ret) := by
  have size := toNat_toWrite socket segmentSize consistent.within
  have within := UInt64.le_iff_toNat_le.mp consistent.within
  refine ⟨consistent.counted, ?_, ?_, ?_⟩
  · rw [UInt32.le_iff_toNat_le]
    omega
  · rw [UInt32.le_iff_toNat_le]
    omega
  · rw [← consistent.counted, ← consistent.targetBytes]
    omega

theorem failed (consistent : client.Consistent segmentSize bytes) (state : State) {ret : Int32}
    (failed : ret < 0) :
    (client.afterSend socket segmentSize ret state).Consistent segmentSize bytes := by
  refine { consistent with
    counted := ?_
    allowed := consistent.allowed.concat (consistent.allowed_send socket ret) }
  have negative : ret.toInt < 0 := Int32.lt_iff_toInt_lt.mp failed
  unfold afterSend
  rw [acceptedBytes_concat, SocketCall.accepted, Int.toNat_of_nonpos negative.le]
  exact consistent.counted

theorem succeeded (consistent : client.Consistent segmentSize bytes) (state : State)
    {ret : Int32} (positive : 1 ≤ ret.toInt)
    (atMost : ret.toInt ≤ (client.toWrite socket segmentSize).toNat) :
    { client.afterSend socket segmentSize ret state with
      currentTxBytes := client.currentTxBytes + UInt64.ofInt ret.toInt
      }.Consistent segmentSize bytes ∧
      client.currentTxBytes.toNat < (client.currentTxBytes + UInt64.ofInt ret.toInt).toNat := by
  have within := UInt64.le_iff_toNat_le.mp consistent.within
  have size := toNat_toWrite socket segmentSize consistent.within
  have sum := toNat_add_ret client.currentTxBytes client.targetBytes ret (by omega) (by omega)
  refine ⟨{ consistent with
    counted := ?_
    within := ?_
    allowed := consistent.allowed.concat (consistent.allowed_send socket ret) }, ?_⟩
  · unfold afterSend
    rw [acceptedBytes_concat, ← consistent.counted]
    exact sum
  · rw [UInt64.le_iff_toNat_le, sum]
    change _ ≤ client.targetBytes.toNat
    omega
  · rw [sum]
    omega

/-- A round of the loop hands over at least one byte, or returns. -/
theorem sendRound (consistent : client.Consistent segmentSize bytes)
    (contract : socket.AcceptsOrFails) (positive : 0 < segmentSize)
    (more : client.currentTxBytes < client.targetBytes)
    (space : 0 < socket.getTxAvailable client.socket) :
    (∃ returned, client.sendRound socket segmentSize = .error returned ∧
        returned.Consistent segmentSize bytes) ∨
      ∃ next, client.sendRound socket segmentSize = .ok next ∧
        next.Consistent segmentSize bytes ∧
        client.currentTxBytes.toNat < next.currentTxBytes.toNat := by
  have writes : 0 < client.toWrite socket segmentSize := by
    rw [UInt64.lt_iff_toNat_lt] at more
    rw [UInt32.lt_iff_toNat_lt, UInt32.toNat_zero] at positive space ⊢
    rw [toNat_toWrite socket segmentSize consistent.within]
    omega
  unfold TcpClient.sendRound
  dsimp only
  rw [if_pos writes]
  rcases contract client.socket _ writes with failed | ⟨positive, atMost⟩
  · exact .inl ⟨_, if_pos failed, consistent.failed _ failed⟩
  · exact .inr ⟨_, if_neg (not_negative positive), consistent.succeeded _ positive atMost⟩

theorem closeIfDone (consistent : client.Consistent segmentSize bytes) :
    (client.closeIfDone socket).Consistent segmentSize bytes := by
  unfold TcpClient.closeIfDone
  split
  next done =>
    have all : client.currentTxBytes = bytes :=
      (UInt64.le_antisymm consistent.within done).trans consistent.targetBytes
    refine { consistent with
      counted := ?_
      allowed := consistent.allowed.concat ⟨consistent.counted, ?_⟩ }
    · rw [acceptedBytes_concat]
      exact consistent.counted
    · rw [← consistent.counted, all]
  next => exact consistent

theorem notifiSendData {next : TcpClient State} {fuel : Nat}
    (consistent : client.Consistent segmentSize bytes) (contract : socket.AcceptsOrFails)
    (positive : 0 < segmentSize)
    (returned : TcpClient.notifiSendData socket segmentSize fuel client = some next) :
    next.Consistent segmentSize bytes := by
  induction fuel generalizing client with
  | zero => cases returned
  | succ fuel inductionHypothesis =>
      unfold TcpClient.notifiSendData at returned
      split at returned
      next condition =>
        rcases consistent.sendRound contract positive condition.1 condition.2 with
          ⟨result, round, after⟩ | ⟨result, round, after, _⟩
        · rw [round] at returned
          exact Option.some.inj returned ▸ after
        · rw [round] at returned
          exact inductionHypothesis after returned
      next => exact Option.some.inj returned ▸ consistent.closeIfDone

/-- `NotifiSendData` returns: no round is made twice with the same number of bytes
left. -/
theorem notifiSendData_returns {fuel : Nat} (consistent : client.Consistent segmentSize bytes)
    (contract : socket.AcceptsOrFails) (positive : 0 < segmentSize)
    (enough : bytes.toNat - client.currentTxBytes.toNat < fuel) :
    ∃ next, TcpClient.notifiSendData socket segmentSize fuel client = some next := by
  induction fuel generalizing client with
  | zero => exact absurd enough (Nat.not_lt_zero _)
  | succ fuel inductionHypothesis =>
      unfold TcpClient.notifiSendData
      split
      next condition =>
        have more := UInt64.lt_iff_toNat_lt.mp condition.1
        rw [consistent.targetBytes] at more
        rcases consistent.sendRound contract positive condition.1 condition.2 with
          ⟨result, round, after⟩ | ⟨result, round, after, progress⟩
        · rw [round]
          exact ⟨result, rfl⟩
        · rw [round]
          exact inductionHypothesis after (by omega)
      next => exact ⟨_, rfl⟩

end Consistent

theorem Consistent.connect (consistent : client.Consistent segmentSize bytes) :
    { client with connected := true }.Consistent segmentSize bytes :=
  { consistent with }

theorem Consistent.step {action : Action State} {next : TcpClient State}
    (consistent : client.Consistent segmentSize bytes) (contract : socket.AcceptsOrFails)
    (positive : 0 < segmentSize) (step : client.Step socket segmentSize action next) :
    next.Consistent segmentSize bytes := by
  obtain ⟨fuel, performed⟩ := step
  cases action with
  | connectionSucceeded => exact consistent.connect.notifiSendData contract positive performed
  | onCanWrite =>
      unfold perform onCanWrite at performed
      dsimp only at performed
      split at performed
      next => exact consistent.notifiSendData contract positive performed
      next => exact Option.some.inj performed ▸ consistent
  | stopApplication =>
      rw [← Option.some.inj performed]
      refine { consistent with counted := ?_, allowed := consistent.allowed.concat trivial }
      exact consistent.counted.trans (acceptedBytes_concat client.calls .stop).symm
  | network state => exact Option.some.inj performed ▸ { consistent with }

theorem Consistent.step_exists (consistent : client.Consistent segmentSize bytes)
    (contract : socket.AcceptsOrFails) (positive : 0 < segmentSize) (action : Action State) :
    ∃ next, client.Step socket segmentSize action next := by
  cases action with
  | connectionSucceeded =>
      obtain ⟨next, returned⟩ :=
        consistent.connect.notifiSendData_returns contract positive (Nat.lt_succ_self _)
      exact ⟨next, bytes.toNat - client.currentTxBytes.toNat + 1, returned⟩
  | onCanWrite =>
      obtain ⟨next, returned⟩ :=
        consistent.notifiSendData_returns contract positive (Nat.lt_succ_self _)
      by_cases connected : client.connected = true
      · exact ⟨next, _, (if_pos connected).trans returned⟩
      · exact ⟨client, 0, if_neg connected⟩
  | stopApplication => exact ⟨_, 0, rfl⟩
  | network state => exact ⟨_, 0, rfl⟩

theorem Consistent.of_run (contract : socket.AcceptsOrFails) (positive : 0 < segmentSize)
    {state : State} {actions : List (Action State)}
    (run : Run (Step socket segmentSize) (create bytes state) actions client) :
    client.Consistent segmentSize bytes :=
  run.invariant _ (consistent_create segmentSize bytes state)
    (fun _ _ _ consistent step => consistent.step contract positive step)

/-- Whatever happens to the client and its socket, every callback returns, the bytes
counted are those that the socket accepted, they never exceed the target, and all
calls of the socket are allowed. -/
theorem client_sends_exactly_target (contract : socket.AcceptsOrFails)
    (positive : 0 < segmentSize) (bytes : UInt64) {state : State}
    {actions : List (Action State)}
    (run : Run (Step socket segmentSize) (create bytes state) actions client) :
    (∀ action, ∃ next, client.Step socket segmentSize action next) ∧
      client.currentTxBytes.toNat = acceptedBytes client.calls ∧
      acceptedBytes client.calls ≤ bytes.toNat ∧
      AtEveryCall (SocketCall.Allowed segmentSize bytes) client.calls := by
  have consistent := Consistent.of_run contract positive run
  refine ⟨consistent.step_exists contract positive, consistent.counted, ?_, consistent.allowed⟩
  rw [← consistent.counted, ← consistent.targetBytes]
  exact UInt64.le_iff_toNat_le.mp consistent.within

def byteSocket : Socket UInt32 where
  getTxAvailable space := space
  send space _ := (1, space - 1)
  close space := space

theorem byteSocket_acceptsOrFails : byteSocket.AcceptsOrFails :=
  fun _ _ some => .inr ⟨Int.le_refl 1, Int.ofNat_le.mpr (UInt32.lt_iff_toNat_lt.mp some)⟩

/-- Three bytes in segments of two, with space for two when the connection is made. -/
theorem client_sends_exactly_target_three :
    ∃ client : TcpClient UInt32,
      client.calls = [.send 0 2 2 1, .send 1 1 1 1, .send 2 5 1 1, .close 3] ∧
      client.currentTxBytes = 3 ∧
      AtEveryCall (SocketCall.Allowed 2 3) client.calls := by
  have connected : (create 3 (2 : UInt32)).Step byteSocket 2 .connectionSucceeded
      ⟨3, 2, true, 0, [.send 0 2 2 1, .send 1 1 1 1]⟩ := ⟨3, by decide⟩
  have drained : Step byteSocket 2 ⟨3, 2, true, 0, [.send 0 2 2 1, .send 1 1 1 1]⟩ (.network 5)
      ⟨3, 2, true, 5, [.send 0 2 2 1, .send 1 1 1 1]⟩ := ⟨0, rfl⟩
  have finished : Step byteSocket 2 ⟨3, 2, true, 5, [.send 0 2 2 1, .send 1 1 1 1]⟩ .onCanWrite
      ⟨3, 3, true, 4, [.send 0 2 2 1, .send 1 1 1 1, .send 2 5 1 1, .close 3]⟩ :=
    ⟨2, by decide⟩
  have run := ((Run.start.snoc connected).snoc drained).snoc finished
  exact ⟨_, rfl, rfl,
    (client_sends_exactly_target byteSocket_acceptsOrFails (by decide) 3 run).2.2.2⟩

end TcpClient

end Ns3Quic.Tcp
