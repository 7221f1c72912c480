import Ns3Quic.Lib.Run
import Mathlib.Data.List.Nodup

/-!
# The endpoint of a session and the channels of its streams

A stream owns a channel, which points back to the endpoint of the session and
notifies it when the stream is destroyed.  The endpoint remembers one channel,
`channel_`: the one made last, or none once any channel has been destroyed.
Its destructor takes back the pointer of that channel only, and the streams
outlive it: they belong to the base class of the session.

The four endpoint classes differ in the streams that they give a channel to.
A channel is designated by its stream.  A server session creates its endpoint
with the first stream that arrives, a client session in its constructor.  What
the channels read and write is not modelled.
-/

namespace Ns3Quic.Session

open TransitionSystem

abbrev QuicStreamId := Nat

inductive StreamType where
  | bidirectional
  | unidirectional
  deriving DecidableEq

inductive ChannelClass where
  | helloBidi
  | echoBidi
  | helloUnidiWrite
  | helloUnidiRead
  | bandwidthWrite
  | bandwidthRead
  deriving DecidableEq

inductive EndpointClass where
  | helloClient (bidiChannel : Bool)
  | echoServer
  | bandwidthClient
  | bandwidthServer
  deriving DecidableEq

namespace EndpointClass

/-- The channel that `OnIncomingBidirectionalStream` or
`OnIncomingUnidirectionalStream` makes. -/
def onIncomingStream : EndpointClass → StreamType → Option ChannelClass
  | .echoServer, .bidirectional => some .echoBidi
  | .echoServer, .unidirectional => some .helloUnidiRead
  | .bandwidthServer, .unidirectional => some .bandwidthRead
  | _, _ => none

/-- The stream that `OnSessionReady` opens and the channel it makes. -/
def onSessionReady : EndpointClass → Option (StreamType × ChannelClass)
  | .helloClient true => some (.bidirectional, .helloBidi)
  | .helloClient false => some (.unidirectional, .helloUnidiWrite)
  | .bandwidthClient => some (.unidirectional, .bandwidthWrite)
  | .echoServer | .bandwidthServer => none

def isClient : EndpointClass → Bool
  | .helloClient _ | .bandwidthClient => true
  | .echoServer | .bandwidthServer => false

end EndpointClass

structure Channel where
  channelClass : ChannelClass
  /-- Whether `notifier_` points to the endpoint. -/
  notifier : Bool
  deriving DecidableEq

structure Ns3TransportStream where
  id : QuicStreamId
  type : StreamType
  visitor : Option Channel
  deriving DecidableEq

inductive Endpoint where
  | absent
  /-- The endpoint exists, with its `channel_`. -/
  | alive (channel : Option QuicStreamId)
  | destroyed
  deriving DecidableEq

inductive SessionFault where
  /-- A channel notifies an endpoint that does not exist any more. -/
  | destroyedEndpoint
  /-- `channel_` points to a channel that does not exist any more. -/
  | danglingChannel
  /-- No stream could be opened, and the null pointer is used. -/
  | nullStream
  /-- `endpoint_` is dereferenced and null. -/
  | noEndpoint
  deriving DecidableEq

structure Ns3QuicSession where
  endpointClass : EndpointClass
  endpoint : Endpoint
  /-- The streams of the session, closed ones included, until they are
  destroyed. -/
  streams : List Ns3TransportStream
  deriving DecidableEq

inductive SessionEvent where
  /-- `CreateIncomingStream`. -/
  | incomingStream (id : QuicStreamId) (type : StreamType)
  /-- A client calls `OnSessionReady`, which opens the stream `id` unless the
  flow control forbids it. -/
  | sessionReady (id : Option QuicStreamId)
  /-- `~Ns3TransportStream`. -/
  | streamDestroyed (id : QuicStreamId)
  /-- The destructor of the session comes to its endpoint. -/
  | endpointDestroyed
  deriving DecidableEq

namespace Ns3QuicSession

def create (endpointClass : EndpointClass) : Ns3QuicSession where
  endpointClass := endpointClass
  endpoint := if endpointClass.isClient then .alive none else .absent
  streams := []

/-- A server creates the endpoint with the first stream. -/
def ensureEndpoint (session : Ns3QuicSession) : Ns3QuicSession :=
  match session.endpoint with
  | .absent => { session with endpoint := .alive none }
  | _ => session

/-- `set_visitor` with a new channel, which the endpoint remembers. -/
def addChannel (session : Ns3QuicSession) (id : QuicStreamId) (type : StreamType)
    (channelClass : ChannelClass) : Ns3QuicSession :=
  { session with
    endpoint := .alive (some id)
    streams := ⟨id, type, some ⟨channelClass, true⟩⟩ :: session.streams }

def createIncomingStream (session : Ns3QuicSession) (id : QuicStreamId) (type : StreamType) :
    Except SessionFault Ns3QuicSession :=
  let session := session.ensureEndpoint
  match session.endpoint with
  | .alive _ =>
      match session.endpointClass.onIncomingStream type with
      | none => .ok { session with streams := ⟨id, type, none⟩ :: session.streams }
      | some channelClass => .ok (session.addChannel id type channelClass)
  | .absent | .destroyed => .error .noEndpoint

def sessionReady (session : Ns3QuicSession) (id : Option QuicStreamId) :
    Except SessionFault Ns3QuicSession :=
  match session.endpoint with
  | .alive _ =>
      match session.endpointClass.onSessionReady, id with
      | none, _ => .ok session
      | some _, none => .error .nullStream
      | some (type, channelClass), some id => .ok (session.addChannel id type channelClass)
  | .absent | .destroyed => .error .noEndpoint

/-- `OnDestroy` of a channel; `OnChannelDestroy` forgets whatever channel the
endpoint remembers. -/
def onDestroy (session : Ns3QuicSession) (channel : Channel) : Except SessionFault Ns3QuicSession :=
  if channel.notifier then
    match session.endpoint with
    | .alive _ => .ok { session with endpoint := .alive none }
    | .absent | .destroyed => .error .destroyedEndpoint
  else
    .ok session

def destroyStream (session : Ns3QuicSession) (id : QuicStreamId) :
    Except SessionFault Ns3QuicSession :=
  let remaining := { session with
    streams := session.streams.filter fun stream => stream.id != id }
  match session.streams.find? fun stream => stream.id == id with
  | some ⟨_, _, some channel⟩ => remaining.onDestroy channel
  | _ => .ok remaining

/-- `set_notifier(nullptr)` of the channel of the stream. -/
def clearNotifier (id : QuicStreamId) (stream : Ns3TransportStream) : Ns3TransportStream :=
  if stream.id = id then
    { stream with visitor := stream.visitor.map fun channel => { channel with notifier := false } }
  else
    stream

def destroyEndpoint (session : Ns3QuicSession) : Except SessionFault Ns3QuicSession :=
  match session.endpoint with
  | .alive none => .ok { session with endpoint := .destroyed }
  | .alive (some id) =>
      if session.streams.any fun stream => stream.id == id && stream.visitor.isSome then
        .ok { session with
          endpoint := .destroyed
          streams := session.streams.map (clearNotifier id) }
      else
        .error .danglingChannel
  | .absent | .destroyed => .ok session

def perform (session : Ns3QuicSession) : SessionEvent → Except SessionFault Ns3QuicSession
  | .incomingStream id type => session.createIncomingStream id type
  | .sessionReady id => session.sessionReady id
  | .streamDestroyed id => session.destroyStream id
  | .endpointDestroyed => session.destroyEndpoint

/-- The events that can happen: streams have numbers of their own and arrive as
long as the session exists. -/
def Enabled (session : Ns3QuicSession) : SessionEvent → Prop
  | .incomingStream id _ =>
      session.endpoint ≠ .destroyed ∧ ∀ stream ∈ session.streams, stream.id ≠ id
  | .sessionReady id =>
      session.endpointClass.isClient = true ∧ session.endpoint ≠ .destroyed ∧
        ∀ stream ∈ session.streams, some stream.id ≠ id
  | .streamDestroyed id => ∃ stream ∈ session.streams, stream.id = id
  | .endpointDestroyed => session.endpoint ≠ .absent ∧ session.endpoint ≠ .destroyed

instance (session : Ns3QuicSession) (event : SessionEvent) : Decidable (session.Enabled event) :=
  match event with
  | .incomingStream _ _ => inferInstanceAs (Decidable (_ ∧ ∀ stream ∈ session.streams, _))
  | .sessionReady _ => inferInstanceAs (Decidable (_ ∧ _ ∧ ∀ stream ∈ session.streams, _))
  | .streamDestroyed _ => inferInstanceAs (Decidable (∃ stream ∈ session.streams, _))
  | .endpointDestroyed => inferInstanceAs (Decidable (_ ∧ _))

def Step : Ns3QuicSession → SessionEvent → Ns3QuicSession → Prop :=
  Guarded Enabled perform

variable {session next : Ns3QuicSession}

/-- As long as the endpoint is not destroyed, every channel points to it, and
the channel that it remembers exists. -/
structure Invariant (session : Ns3QuicSession) : Prop where
  distinct : (session.streams.map Ns3TransportStream.id).Nodup
  existing : session.endpoint = .absent → ∀ stream ∈ session.streams, stream.visitor = none
  notified : session.endpoint ≠ .destroyed → ∀ stream ∈ session.streams,
    ∀ channel, stream.visitor = some channel → channel.notifier = true
  remembered : ∀ id, session.endpoint = .alive (some id) →
    ∃ stream ∈ session.streams, stream.id = id ∧ stream.visitor.isSome = true

theorem invariant_create (endpointClass : EndpointClass) :
    (create endpointClass).Invariant where
  distinct := List.nodup_nil
  existing := by simp [create]
  notified := by simp [create]
  remembered := by
    unfold create
    intro id known
    dsimp only at known
    split at known
    next => cases known
    next => cases known

theorem invariant_of_destroyed (distinct : (session.streams.map Ns3TransportStream.id).Nodup)
    (destroyed : session.endpoint = .destroyed) : session.Invariant where
  distinct := distinct
  existing := fun absent => absurd (destroyed.symm.trans absent) nofun
  notified := fun standing => absurd destroyed standing
  remembered := fun _ known => absurd (destroyed.symm.trans known) nofun

theorem Invariant.distinct_cons (inv : session.Invariant) {id : QuicStreamId}
    (fresh : ∀ stream ∈ session.streams, stream.id ≠ id) :
    (id :: session.streams.map Ns3TransportStream.id).Nodup := by
  refine List.nodup_cons.mpr ⟨fun membership => ?_, inv.distinct⟩
  obtain ⟨stream, present, same⟩ := List.mem_map.mp membership
  exact fresh stream present same

theorem Invariant.ensureEndpoint (inv : session.Invariant) : session.ensureEndpoint.Invariant := by
  unfold Ns3QuicSession.ensureEndpoint
  split
  next absent =>
    refine ⟨inv.distinct, nofun, fun _ => inv.notified ?_, nofun⟩
    rw [absent]
    decide
  next => exact inv

theorem Invariant.addStream (inv : session.Invariant) {id : QuicStreamId} (type : StreamType)
    (fresh : ∀ stream ∈ session.streams, stream.id ≠ id) :
    { session with streams := ⟨id, type, none⟩ :: session.streams }.Invariant := by
  refine ⟨inv.distinct_cons fresh, ?_, ?_, ?_⟩
  · intro absent stream membership
    rcases List.mem_cons.mp membership with rfl | present
    · rfl
    · exact inv.existing absent stream present
  · intro standing stream membership channel known
    rcases List.mem_cons.mp membership with rfl | present
    · cases known
    · exact inv.notified standing stream present channel known
  · intro other known
    obtain ⟨stream, present, same⟩ := inv.remembered other known
    exact ⟨stream, List.mem_cons_of_mem _ present, same⟩

theorem Invariant.addChannel (inv : session.Invariant) {id : QuicStreamId} (type : StreamType)
    (channelClass : ChannelClass) (standing : session.endpoint ≠ .destroyed)
    (fresh : ∀ stream ∈ session.streams, stream.id ≠ id) :
    (session.addChannel id type channelClass).Invariant := by
  refine ⟨inv.distinct_cons fresh, nofun, ?_, ?_⟩
  · intro _ stream membership channel known
    rcases List.mem_cons.mp membership with rfl | present
    · rw [← Option.some.inj known]
    · exact inv.notified standing stream present channel known
  · intro other known
    refine ⟨_, List.mem_cons_self, ?_, rfl⟩
    have same : (Endpoint.alive (some id)) = .alive (some other) := known
    cases same
    rfl

theorem Invariant.createIncomingStream (inv : session.Invariant) {id : QuicStreamId}
    {type : StreamType} (fresh : ∀ stream ∈ session.streams, stream.id ≠ id)
    (result : session.createIncomingStream id type = .ok next) : next.Invariant := by
  have ready := inv.ensureEndpoint
  have sameStreams : session.ensureEndpoint.streams = session.streams := by
    unfold Ns3QuicSession.ensureEndpoint
    split <;> rfl
  rw [← sameStreams] at fresh
  unfold Ns3QuicSession.createIncomingStream at result
  dsimp only at result
  split at result
  next channel alive =>
    split at result
    next =>
      rw [← Except.ok.inj result]
      exact ready.addStream type fresh
    next channelClass _ =>
      rw [← Except.ok.inj result]
      exact ready.addChannel type channelClass (by rw [alive]; nofun) fresh
  next => cases result
  next => cases result

theorem Invariant.sessionReady (inv : session.Invariant) {id : Option QuicStreamId}
    (fresh : ∀ stream ∈ session.streams, some stream.id ≠ id)
    (result : session.sessionReady id = .ok next) : next.Invariant := by
  unfold Ns3QuicSession.sessionReady at result
  split at result
  next channel alive =>
    split at result
    next =>
      rw [← Except.ok.inj result]
      exact inv
    next => cases result
    next type channelClass opened _ =>
      rw [← Except.ok.inj result]
      exact inv.addChannel type channelClass (by rw [alive]; nofun)
        fun stream membership same => fresh stream membership (congrArg some same)
  next => cases result
  next => cases result

def withoutStream (session : Ns3QuicSession) (id : QuicStreamId) : Ns3QuicSession :=
  { session with streams := session.streams.filter fun stream => stream.id != id }

theorem mem_withoutStream {id : QuicStreamId} {stream : Ns3TransportStream} :
    stream ∈ (session.withoutStream id).streams ↔ stream ∈ session.streams ∧ stream.id ≠ id := by
  simp [withoutStream]

theorem Invariant.eq_of_id_eq (inv : session.Invariant) {stream other : Ns3TransportStream}
    (present : stream ∈ session.streams) (otherPresent : other ∈ session.streams)
    (same : stream.id = other.id) : stream = other :=
  List.inj_on_of_nodup_map inv.distinct present otherPresent same

theorem Invariant.destroyStream_eq (inv : session.Invariant) {stream : Ns3TransportStream}
    (present : stream ∈ session.streams) :
    session.destroyStream stream.id =
      match stream.visitor with
      | none => .ok (session.withoutStream stream.id)
      | some channel => (session.withoutStream stream.id).onDestroy channel := by
  have found : session.streams.find? (fun other => other.id == stream.id) = some stream := by
    cases search : session.streams.find? fun other => other.id == stream.id with
    | none =>
        have missing := List.find?_eq_none.mp search stream present
        simp at missing
    | some other =>
        have same : other.id = stream.id := by simpa using List.find?_some search
        rw [inv.eq_of_id_eq (List.mem_of_find?_eq_some search) present same]
  unfold Ns3QuicSession.destroyStream
  rw [found]
  obtain ⟨id, type, visitor⟩ := stream
  cases visitor with
  | none => rfl
  | some channel => rfl

theorem Invariant.distinct_withoutStream (inv : session.Invariant) (id : QuicStreamId) :
    ((session.withoutStream id).streams.map Ns3TransportStream.id).Nodup :=
  inv.distinct.sublist (List.filter_sublist.map _)

theorem Invariant.withoutStream (inv : session.Invariant) {stream : Ns3TransportStream}
    (present : stream ∈ session.streams) (noChannel : stream.visitor = none) :
    (session.withoutStream stream.id).Invariant where
  distinct := inv.distinct_withoutStream stream.id
  existing := fun absent other membership =>
    inv.existing absent other (mem_withoutStream.mp membership).1
  notified := fun standing other membership =>
    inv.notified standing other (mem_withoutStream.mp membership).1
  remembered := by
    intro id known
    obtain ⟨other, otherPresent, same, hasChannel⟩ := inv.remembered id known
    refine ⟨other, mem_withoutStream.mpr ⟨otherPresent, fun sameId => ?_⟩, same, hasChannel⟩
    rw [inv.eq_of_id_eq otherPresent present sameId, noChannel] at hasChannel
    cases hasChannel

theorem Invariant.destroyStream (inv : session.Invariant)
    (standing : session.endpoint ≠ .destroyed) {stream : Ns3TransportStream}
    (present : stream ∈ session.streams) :
    ∃ next, session.destroyStream stream.id = .ok next ∧ next.Invariant := by
  rw [inv.destroyStream_eq present]
  cases visitor : stream.visitor with
  | none => exact ⟨_, rfl, inv.withoutStream present visitor⟩
  | some channel =>
      have notifier := inv.notified standing stream present channel visitor
      dsimp only
      unfold onDestroy
      rw [if_pos notifier]
      cases endpoint : session.endpoint with
      | absent =>
          rw [inv.existing endpoint stream present] at visitor
          cases visitor
      | destroyed => exact absurd endpoint standing
      | alive remembered =>
          simp only [Ns3QuicSession.withoutStream, endpoint]
          refine ⟨_, rfl, inv.distinct_withoutStream stream.id, nofun, ?_, nofun⟩
          exact fun _ other membership =>
            inv.notified standing other (mem_withoutStream.mp membership).1

def Unreferenced (session : Ns3QuicSession) : Prop :=
  ∀ stream ∈ session.streams, ∀ channel, stream.visitor = some channel → channel.notifier = false

def RemembersAll (session : Ns3QuicSession) : Prop :=
  ∀ stream ∈ session.streams, stream.visitor.isSome = true →
    session.endpoint = .alive (some stream.id)

theorem clearNotifier_id (id : QuicStreamId) (stream : Ns3TransportStream) :
    (clearNotifier id stream).id = stream.id := by
  unfold clearNotifier
  split <;> rfl

theorem unreferenced_clearNotifier_iff {streams : List Ns3TransportStream} {id : QuicStreamId}
    (notified : ∀ stream ∈ streams, ∀ channel, stream.visitor = some channel →
      channel.notifier = true) :
    (∀ stream ∈ streams.map (clearNotifier id), ∀ channel, stream.visitor = some channel →
      channel.notifier = false) ↔
    ∀ stream ∈ streams, stream.visitor.isSome = true → stream.id = id := by
  constructor
  · intro unreferenced stream present hasChannel
    by_contra other
    obtain ⟨channel, visitor⟩ := Option.isSome_iff_exists.mp hasChannel
    have pointing := notified stream present channel visitor
    rw [unreferenced _ (List.mem_map_of_mem present) channel
      (by rw [clearNotifier, if_neg other]; exact visitor)] at pointing
    cases pointing
  · intro only cleared membership channel visitor
    obtain ⟨stream, present, rfl⟩ := List.mem_map.mp membership
    unfold clearNotifier at visitor
    split at visitor
    next =>
      obtain ⟨before, _, same⟩ := Option.map_eq_some_iff.mp visitor
      rw [← same]
    next other => exact absurd (only stream present (by rw [visitor]; rfl)) other

theorem Invariant.destroyEndpoint (inv : session.Invariant) {channel : Option QuicStreamId}
    (alive : session.endpoint = .alive channel) :
    ∃ next, session.destroyEndpoint = .ok next ∧ next.Invariant ∧ next.endpoint = .destroyed ∧
      (next.Unreferenced ↔ session.RemembersAll) := by
  have notified := inv.notified (by rw [alive]; nofun)
  unfold Ns3QuicSession.destroyEndpoint RemembersAll
  rw [alive]
  cases channel with
  | none =>
      refine ⟨_, rfl, invariant_of_destroyed inv.distinct rfl, rfl, ?_⟩
      constructor
      · intro unreferenced stream present hasChannel
        obtain ⟨channel, visitor⟩ := Option.isSome_iff_exists.mp hasChannel
        have pointing := notified stream present channel visitor
        rw [unreferenced stream present channel visitor] at pointing
        cases pointing
      · intro remembersAll stream present channel visitor
        cases remembersAll stream present (by rw [visitor]; rfl)
  | some id =>
      obtain ⟨stream, present, same, hasChannel⟩ := inv.remembered id alive
      have live : session.streams.any
          (fun stream => stream.id == id && stream.visitor.isSome) = true :=
        List.any_eq_true.mpr ⟨stream, present, by simp [same, hasChannel]⟩
      have sameIds : (session.streams.map (clearNotifier id)).map Ns3TransportStream.id =
          session.streams.map Ns3TransportStream.id := by
        rw [List.map_map]
        exact List.map_congr_left fun stream _ => clearNotifier_id id stream
      dsimp only
      rw [if_pos live]
      refine ⟨_, rfl, invariant_of_destroyed ?_ rfl, rfl, ?_⟩
      · rw [sameIds]
        exact inv.distinct
      · simp only [Endpoint.alive.injEq, Option.some.injEq, eq_comm (a := id)]
        exact unreferenced_clearNotifier_iff notified

theorem Invariant.step (inv : session.Invariant) (standing : session.endpoint ≠ .destroyed)
    {event : SessionEvent} (step : Step session event next) : next.Invariant := by
  obtain ⟨enabled, result⟩ := step
  cases event with
  | incomingStream id type => exact inv.createIncomingStream enabled.2 result
  | sessionReady id => exact inv.sessionReady enabled.2.2 result
  | streamDestroyed id =>
      obtain ⟨stream, present, rfl⟩ := enabled
      obtain ⟨other, performed, otherInv⟩ := inv.destroyStream standing present
      rw [show session.destroyStream stream.id = .ok next from result] at performed
      exact Except.ok.inj performed ▸ otherInv
  | endpointDestroyed =>
      cases endpoint : session.endpoint with
      | absent => exact absurd endpoint enabled.1
      | destroyed => exact absurd endpoint standing
      | alive channel =>
          obtain ⟨other, performed, otherInv, _⟩ := inv.destroyEndpoint endpoint
          rw [show session.destroyEndpoint = .ok next from result] at performed
          exact Except.ok.inj performed ▸ otherInv

theorem perform_destroyedEndpoint {event : SessionEvent}
    (result : session.perform event = .error .destroyedEndpoint) :
    ∃ id, event = .streamDestroyed id := by
  cases event with
  | incomingStream id type =>
      unfold perform createIncomingStream at result
      dsimp only at result
      split at result
      next => split at result <;> cases result
      next => cases result
      next => cases result
  | sessionReady id =>
      unfold perform sessionReady at result
      dsimp only at result
      split at result
      next => split at result <;> cases result
      next => cases result
      next => cases result
  | streamDestroyed id => exact ⟨id, rfl⟩
  | endpointDestroyed =>
      unfold perform destroyEndpoint at result
      dsimp only at result
      split at result
      next => cases result
      next => split at result <;> cases result
      next => cases result
      next => cases result

theorem Invariant.no_notification_lost (inv : session.Invariant)
    (standing : session.endpoint ≠ .destroyed) {event : SessionEvent}
    (enabled : session.Enabled event) :
    session.perform event ≠ .error .destroyedEndpoint := by
  intro result
  obtain ⟨id, rfl⟩ := perform_destroyedEndpoint result
  obtain ⟨stream, present, rfl⟩ := enabled
  obtain ⟨next, performed, _⟩ := inv.destroyStream standing present
  rw [show session.destroyStream stream.id = _ from result] at performed
  cases performed

/-! ## After the endpoint -/

/-- What is left of a session whose endpoint is destroyed: its streams go, one
after the other. -/
structure Remains (session : Ns3QuicSession) : Prop where
  invariant : session.Invariant
  destroyed : session.endpoint = .destroyed

theorem Remains.event (remains : session.Remains) {event : SessionEvent}
    (enabled : session.Enabled event) :
    ∃ stream ∈ session.streams, event = .streamDestroyed stream.id := by
  cases event with
  | incomingStream id type => exact absurd remains.destroyed enabled.1
  | sessionReady id => exact absurd remains.destroyed enabled.2.1
  | streamDestroyed id =>
      obtain ⟨stream, present, rfl⟩ := enabled
      exact ⟨stream, present, rfl⟩
  | endpointDestroyed => exact absurd remains.destroyed enabled.2

theorem Remains.destroyStream_eq (remains : session.Remains) {stream : Ns3TransportStream}
    (present : stream ∈ session.streams) :
    session.destroyStream stream.id =
      if stream.visitor.any Channel.notifier then .error .destroyedEndpoint
      else .ok (session.withoutStream stream.id) := by
  rw [remains.invariant.destroyStream_eq present]
  cases stream.visitor with
  | none => rfl
  | some channel =>
      have gone : (session.withoutStream stream.id).endpoint = .destroyed := remains.destroyed
      simp only [onDestroy, gone, Option.any_some]

theorem Remains.step (remains : session.Remains) {event : SessionEvent}
    (step : Step session event next) :
    next.Remains ∧ ∀ stream ∈ next.streams, stream ∈ session.streams := by
  obtain ⟨enabled, result⟩ := step
  obtain ⟨stream, present, rfl⟩ := remains.event enabled
  rw [show session.perform (.streamDestroyed stream.id) = _ from
    remains.destroyStream_eq present] at result
  split at result
  next => cases result
  next =>
    rw [← Except.ok.inj result]
    have distinct := remains.invariant.distinct_withoutStream stream.id
    exact ⟨⟨invariant_of_destroyed distinct remains.destroyed, remains.destroyed⟩,
      fun other membership => (mem_withoutStream.mp membership).1⟩

/-- The streams can all be destroyed, in any order, exactly if no channel points
to the endpoint. -/
theorem Remains.safe_iff (remains : session.Remains) :
    (∀ events later, Run Step session events later → ∀ event, later.Enabled event →
      later.perform event ≠ .error .destroyedEndpoint) ↔ session.Unreferenced := by
  constructor
  · intro safe stream present channel visitor
    rw [Bool.eq_false_iff]
    intro notifier
    refine safe [] session .start (.streamDestroyed stream.id) ⟨stream, present, rfl⟩ ?_
    refine (remains.destroyStream_eq present).trans (if_pos ?_)
    rw [visitor]
    exact notifier
  · intro unreferenced events later run event enabled result
    have holds := run.invariant (fun state => state.Remains ∧ state.Unreferenced)
      ⟨remains, unreferenced⟩ fun state event after holds step => by
        obtain ⟨afterRemains, fewer⟩ := holds.1.step step
        exact ⟨afterRemains, fun stream present => holds.2 stream (fewer stream present)⟩
    obtain ⟨stream, present, rfl⟩ := holds.1.event enabled
    rw [show later.perform (.streamDestroyed stream.id) = _ from
      holds.1.destroyStream_eq present] at result
    split at result
    next points =>
      obtain ⟨channel, visitor, notifier⟩ := (Option.any_eq_true _ _).mp points
      rw [holds.2 stream present channel visitor] at notifier
      cases notifier
    next => cases result

theorem invariant_of_run {endpointClass : EndpointClass} {events : List SessionEvent}
    (run : Run Step (create endpointClass) events session) : session.Invariant := by
  refine run.invariant Invariant (invariant_create endpointClass) ?_
  intro state event next inv step
  by_cases destroyed : state.endpoint = .destroyed
  · exact (Remains.step ⟨inv, destroyed⟩ step).1.invariant
  · exact inv.step destroyed step

/-- In every session, no channel notifies a destroyed endpoint before the
endpoint is destroyed, and none does so afterwards exactly if the endpoint
remembers every channel there is when it is destroyed: exactly then no channel
points to it any more. -/
theorem endpoint_unreferenced_iff {endpointClass : EndpointClass} {events : List SessionEvent}
    (run : Run Step (create endpointClass) events session)
    (standing : session.endpoint ≠ .destroyed) :
    (∀ event, session.Enabled event → session.perform event ≠ .error .destroyedEndpoint) ∧
      (session.Enabled .endpointDestroyed →
        ∃ next, session.perform .endpointDestroyed = .ok next ∧
          (next.Unreferenced ↔ session.RemembersAll) ∧
          ((∀ events later, Run Step next events later → ∀ event, later.Enabled event →
            later.perform event ≠ .error .destroyedEndpoint) ↔ session.RemembersAll)) := by
  have inv := invariant_of_run run
  refine ⟨fun event enabled => inv.no_notification_lost standing enabled, fun enabled => ?_⟩
  cases endpoint : session.endpoint with
  | absent => exact absurd endpoint enabled.1
  | destroyed => exact absurd endpoint standing
  | alive channel =>
      obtain ⟨next, performed, nextInv, destroyed, unreferenced⟩ := inv.destroyEndpoint endpoint
      exact ⟨next, performed, unreferenced,
        (Remains.safe_iff ⟨nextInv, destroyed⟩).trans unreferenced⟩

/-- A server with one stream. -/
theorem endpoint_unreferenced_iff_one_stream :
    ∃ session next : Ns3QuicSession,
      Run Step (create .bandwidthServer) [.incomingStream 2 .unidirectional] session ∧
      session.perform .endpointDestroyed = .ok next ∧
      next.perform (.streamDestroyed 2) ≠ .error .destroyedEndpoint := by
  have run : Run Step (create .bandwidthServer) _ _ :=
    Run.of_execute [.incomingStream 2 .unidirectional] rfl
  obtain ⟨next, performed, _, safe⟩ :=
    (endpoint_unreferenced_iff run (by decide)).2 (by decide)
  refine ⟨_, next, run, performed, ?_⟩
  have remembers : Ns3QuicSession.RemembersAll
      ⟨.bandwidthServer, .alive (some 2), [⟨2, .unidirectional, some ⟨.bandwidthRead, true⟩⟩]⟩ := by
    intro stream present _
    rw [List.mem_singleton.mp present]
  exact safe.mpr remembers [] next .start (.streamDestroyed 2) (Except.ok.inj performed ▸ by decide)

/-- A server with two streams: the channel of the first one still points to the
endpoint when the endpoint has been destroyed. -/
theorem first_of_two_channels_notifies_destroyed_endpoint :
    ∃ session : Ns3QuicSession,
      Run Step (create .bandwidthServer)
        [.incomingStream 2 .unidirectional, .incomingStream 6 .unidirectional,
          .endpointDestroyed] session ∧
      session.endpoint = .destroyed ∧
      session.Enabled (.streamDestroyed 2) ∧
      session.perform (.streamDestroyed 2) = .error .destroyedEndpoint := by
  have run : Run Step (create .bandwidthServer) _ _ := Run.of_execute
    [.incomingStream 2 .unidirectional, .incomingStream 6 .unidirectional,
      .endpointDestroyed] rfl
  exact ⟨_, run, rfl, by decide, rfl⟩

end Ns3QuicSession

end Ns3Quic.Session
