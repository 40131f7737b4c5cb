import Mathlib.Algebra.Order.Ring.Int
import Mathlib.Data.List.Basic
import Mathlib.Logic.Function.Basic
import Batty.Foundation.Fallible

/-!
# Framed messages on a stream

A message is sent as its length in four bytes, the most significant first, and then its JSON.
`Channel.send` writes the two one after the other, and `Channel.recv` reads the two one after the
other; nothing marks where a frame begins.

**Timeouts.** A read that times out keeps nothing of what it has read, so the next call takes the
middle of a frame for its beginning. Messages survive timeouts exactly if no call times out once a
byte has arrived (`framingSurvives_iff_arriveWhole`).

**Clones.** Clones of a channel share the stream and no lock. What the peer decodes is what was
sent exactly if no write of another clone comes between the two of a frame
(`decodesAll_iff_unbroken`).

How messages are turned into JSON and back is left to a `Codec`.
-/

namespace Batty

abbrev Bytes := List UInt8

/-- Serialization as JSON. -/
structure Codec (M : Type) where
  toVec : M → Bytes
  fromSlice : Bytes → Option M

/-- What is read back is what was written. -/
def Codec.RoundTrips {M : Type} (codec : Codec M) : Prop :=
  ∀ message, codec.fromSlice (codec.toVec message) = some message

/-- No text begins with a null byte. -/
def Codec.RejectsNull {M : Type} (codec : Codec M) : Prop :=
  ∀ bytes, codec.fromSlice (0 :: bytes) = none

def maxMsg : Nat := 1048576

/-! ### Lengths -/

/-- The four bytes of a 32-bit number. -/
def toBeBytes (n : Nat) : Bytes :=
  [UInt8.ofNat (n / 2 ^ 24), UInt8.ofNat (n / 2 ^ 16), UInt8.ofNat (n / 2 ^ 8), UInt8.ofNat n]

def fromBeBytes (bytes : Bytes) : Nat := bytes.foldl (fun n byte => n * 256 + byte.toNat) 0

theorem fromBeBytes_toBeBytes {n : Nat} (h : n < 2 ^ 32) : fromBeBytes (toBeBytes n) = n := by
  simp only [fromBeBytes, toBeBytes, List.foldl_cons, List.foldl_nil, UInt8.toNat_ofNat']
  omega

@[simp] theorem length_toBeBytes (n : Nat) : (toBeBytes n).length = 4 := rfl

/-- The first byte of the length of a message is null. -/
theorem toBeBytes_eq_null_cons {n : Nat} (h : n ≤ maxMsg) : ∃ rest, toBeBytes n = 0 :: rest := by
  have hnull : n / 2 ^ 24 = 0 := Nat.div_eq_of_lt (Nat.lt_of_le_of_lt h (by decide))
  rw [toBeBytes, hnull]
  exact ⟨_, rfl⟩

/-! ### Sending -/

section

variable {M : Type}

/-- The buffers that `send` writes one after the other; nothing is written of a message that is too
large. -/
def Codec.send (codec : Codec M) (message : M) : Option (List Bytes) :=
  let json := codec.toVec message
  if maxMsg < json.length then none else some [toBeBytes json.length, json]

/-- All messages fit. -/
def Codec.Fits (codec : Codec M) (messages : List M) : Prop :=
  ∀ message ∈ messages, (codec.toVec message).length ≤ maxMsg

def Codec.writes (codec : Codec M) (messages : List M) : List Bytes :=
  messages.flatMap fun message => (codec.send message).getD []

theorem Codec.writes_cons {codec : Codec M} {message : M} {messages : List M}
    (h : codec.Fits (message :: messages)) : codec.writes (message :: messages) =
      toBeBytes (codec.toVec message).length :: codec.toVec message :: codec.writes messages := by
  have hsmall : ¬ maxMsg < (codec.toVec message).length :=
    Nat.not_lt.mpr (h message List.mem_cons_self)
  rw [writes, List.flatMap_cons, send, if_neg hsmall]
  rfl

theorem Codec.Fits.tail {codec : Codec M} {message : M} {messages : List M}
    (h : codec.Fits (message :: messages)) : codec.Fits messages :=
  fun other hmem => h other (List.mem_cons_of_mem _ hmem)

/-! ### Receiving -/

/-- The bytes that the peer has sent or is going to send, and whether it closes the stream then. -/
structure Socket where
  unread : Bytes
  closed : Bool

/-- How a read of the socket fails. -/
inductive ReadError where
  | unexpectedEof
  | timedOut
deriving DecidableEq

/-- How the receipt of a frame fails. -/
inductive RecvError where
  | io (error : ReadError)
  | tooLarge (len : Nat)
  | json
deriving DecidableEq

/-- Fill a buffer of `len` bytes, of which `arrived` come in time. What was read before a timeout is
lost. -/
def readExact (len arrived : Nat) : EStateM ReadError Socket Bytes := fun socket =>
  if len ≤ arrived ∧ len ≤ socket.unread.length then
    .ok (socket.unread.take len) { socket with unread := socket.unread.drop len }
  else if socket.closed ∧ socket.unread.length ≤ arrived then
    .error .unexpectedEof { socket with unread := [] }
  else .error .timedOut { socket with unread := socket.unread.drop arrived }

/-- How many bytes arrive before either read of a call times out. -/
structure Arrivals where
  header : Nat
  payload : Nat

/-- Everything that the call asks for arrives. -/
def Arrivals.all : Arrivals := { header := 4, payload := maxMsg }

/-- Read a frame: its length, and then so many bytes. -/
def Codec.recv (codec : Codec M) (arrivals : Arrivals) : EStateM RecvError Socket (Option M) := do
  match ← attempt (readExact 4 arrivals.header) with
  | .error .unexpectedEof => return none
  | .error error => throw (.io error)
  | .ok header =>
    let len := fromBeBytes header
    if maxMsg < len then throw (.tooLarge len)
    else
      match ← attempt (readExact len arrivals.payload) with
      | .error error => throw (.io error)
      | .ok json =>
        match codec.fromSlice json with
        | some message => return some message
        | none => throw .json

/-- A timeout counts as no event. -/
def Codec.tryRecvEvent (codec : Codec M) (arrivals : Arrivals) :
    EStateM RecvError Socket (Option M) := do
  match ← attempt (codec.recv arrivals) with
  | .ok event => return event
  | .error (.io .timedOut) => return none
  | .error error => throw error

/-! ### What a call does -/

variable {codec : Codec M} {arrivals : Arrivals} {rest json : Bytes} {closed : Bool}

theorem readExact_append {buffer : Bytes} {arrived : Nat} (h : buffer.length ≤ arrived) :
    readExact buffer.length arrived { unread := buffer ++ rest, closed } =
      .ok buffer { unread := rest, closed } := by
  rw [readExact, if_pos ⟨h, by simp⟩]
  simp

/-- With fewer bytes than were asked for, of those that are sent, the read times out. -/
theorem readExact_timedOut {len arrived : Nat} {socket : Socket} (harrived : arrived < len)
    (hlen : len ≤ socket.unread.length) : readExact len arrived socket =
      .error .timedOut { socket with unread := socket.unread.drop arrived } := by
  rw [readExact, if_neg (by omega), if_neg (by omega)]

theorem recv_of_header_timedOut {socket : Socket} (hheader : arrivals.header < 4)
    (hlen : 4 ≤ socket.unread.length) : codec.recv arrivals socket =
      .error (.io .timedOut) { socket with unread := socket.unread.drop arrivals.header } := by
  have hread := readExact_timedOut hheader hlen
  simp only [Codec.recv, bind, EStateM.bind, attempt, hread]
  rfl

/-- After a header that is in time, what counts is the payload that it announces. -/
theorem recv_of_header {len : Nat} (hlen : len ≤ maxMsg) (hheader : 4 ≤ arrivals.header) :
    codec.recv arrivals { unread := toBeBytes len ++ rest, closed } =
      (do match ← attempt (readExact len arrivals.payload) with
          | .error error => throw (.io error)
          | .ok json =>
            match codec.fromSlice json with
            | some message => return some message
            | none => throw .json : EStateM RecvError Socket (Option M))
        { unread := rest, closed } := by
  have hread : readExact 4 arrivals.header { unread := toBeBytes len ++ rest, closed } =
      .ok (toBeBytes len) { unread := rest, closed } :=
    readExact_append (show (toBeBytes len).length ≤ arrivals.header from hheader)
  have hvalue := fromBeBytes_toBeBytes (Nat.lt_of_le_of_lt hlen (by decide))
  simp only [Codec.recv, bind, EStateM.bind, attempt, hread, hvalue, if_neg (Nat.not_lt.mpr hlen)]

theorem recv_of_payload_timedOut (hlen : json.length ≤ maxMsg) (hheader : 4 ≤ arrivals.header)
    (hpayload : arrivals.payload < json.length) :
    codec.recv arrivals { unread := toBeBytes json.length ++ (json ++ rest), closed } =
      .error (.io .timedOut) { unread := (json ++ rest).drop arrivals.payload, closed } := by
  have hread : readExact json.length arrivals.payload { unread := json ++ rest, closed } =
      .error .timedOut { unread := (json ++ rest).drop arrivals.payload, closed } :=
    readExact_timedOut hpayload (by simp)
  rw [recv_of_header hlen hheader]
  simp only [bind, EStateM.bind, attempt, hread]
  rfl

/-- A payload that is in time is read as what it is. -/
theorem recv_of_payload (hlen : json.length ≤ maxMsg) (hheader : 4 ≤ arrivals.header)
    (hpayload : json.length ≤ arrivals.payload) :
    codec.recv arrivals { unread := toBeBytes json.length ++ (json ++ rest), closed } =
      match codec.fromSlice json with
      | some message => .ok (some message) { unread := rest, closed }
      | none => .error .json { unread := rest, closed } := by
  rw [recv_of_header hlen hheader]
  simp only [bind, EStateM.bind, attempt, readExact_append hpayload]
  cases codec.fromSlice json <;> rfl

/-- When everything has been read there is nothing, or the call times out. -/
theorem recv_of_nil : codec.recv arrivals { unread := [], closed } =
    if closed then .ok none { unread := [], closed }
    else .error (.io .timedOut) { unread := [], closed } := by
  have hread : readExact 4 arrivals.header { unread := [], closed } =
      if closed then .error .unexpectedEof { unread := [], closed }
      else .error .timedOut { unread := [], closed } := by
    cases closed <;> simp [readExact]
  simp only [Codec.recv, bind, EStateM.bind, attempt, hread]
  cases closed <;> rfl

/-- Two of the events, which are their names alone. -/
inductive PlainEvent where
  | ready
  | pong
deriving DecidableEq

def PlainEvent.toVec (event : PlainEvent) : Bytes :=
  let json := match event with
    | .ready => "\x7b\"event\":\"Ready\"\x7d"
    | .pong => "\x7b\"event\":\"Pong\"\x7d"
  json.toList.map fun c => UInt8.ofNat c.toNat

def plainCodec : Codec PlainEvent where
  toVec := PlainEvent.toVec
  fromSlice bytes := [PlainEvent.ready, PlainEvent.pong].find? fun event => event.toVec = bytes

theorem plainCodec_roundTrips : plainCodec.RoundTrips := by
  intro message
  cases message <;> decide +kernel

theorem plainCodec_fits (messages : List PlainEvent) : plainCodec.Fits messages := by
  intro message _
  cases message <;> decide +kernel

theorem plainCodec_rejectsNull : plainCodec.RejectsNull := by
  intro bytes
  have hhead : ∀ event : PlainEvent, event.toVec.head? = some 123 := by
    intro event
    cases event <;> decide +kernel
  refine List.find?_eq_none.mpr fun event _ heq => ?_
  have hevent := hhead event
  rw [of_decide_eq_true heq] at hevent
  cases hevent

theorem plainCodec_nonempty (message : PlainEvent) : plainCodec.toVec message ≠ [] := by
  cases message <;> decide +kernel

/-! ### Timeouts -/

/-- A call of the reader: `recv` itself or `try_recv_event`. -/
structure RecvCall where
  arrivals : Arrivals
  asEvent : Bool

def Codec.receive (codec : Codec M) (call : RecvCall) : EStateM RecvError Socket (Option M) :=
  if call.asEvent then codec.tryRecvEvent call.arrivals else codec.recv call.arrivals

/-- What the calls return, as far as they return messages; the reader goes on after an error. -/
def Codec.received (codec : Codec M) : List RecvCall → Socket → List M
  | [], _ => []
  | call :: calls, socket =>
    match codec.receive call socket with
    | .ok (some message) socket => message :: codec.received calls socket
    | .ok none socket => codec.received calls socket
    | .error _ socket => codec.received calls socket

/-- No call that times out has taken anything from the stream. -/
def Codec.TimeoutsKeep (codec : Codec M) : List RecvCall → Socket → Prop
  | [], _ => True
  | call :: calls, socket =>
    (∀ socket', codec.recv call.arrivals socket = .error (.io .timedOut) socket' →
      socket' = socket) ∧ codec.TimeoutsKeep calls (endState (codec.receive call) socket)

/-- **Framing survives**: what is received is a prefix of what was sent, and timeouts take nothing
from the stream. -/
structure Codec.FramingSurvives (codec : Codec M) (messages : List M) (closed : Bool)
    (calls : List RecvCall) : Prop where
  received : codec.received calls { unread := (codec.writes messages).flatten, closed } <+: messages
  timeouts : codec.TimeoutsKeep calls { unread := (codec.writes messages).flatten, closed }

/-- Each call finds nothing in time, or the whole of the next frame. -/
def Codec.ArriveWhole (codec : Codec M) : List M → List RecvCall → Prop
  | _, [] => True
  | [], _ => True
  | message :: messages, call :: calls =>
    call.arrivals.header = 0 ∧ codec.ArriveWhole (message :: messages) calls ∨
    4 ≤ call.arrivals.header ∧ (codec.toVec message).length ≤ call.arrivals.payload ∧
      codec.ArriveWhole messages calls

variable {call : RecvCall} {calls : List RecvCall} {socket socket' : Socket} {message : M}
  {messages : List M}

/-- Whether a timeout is an error or no event makes no difference to what comes after. -/
theorem receive_eq (codec : Codec M) (call : RecvCall) (socket : Socket) :
    codec.receive call socket = codec.recv call.arrivals socket ∨
    ∃ socket', codec.recv call.arrivals socket = .error (.io .timedOut) socket' ∧
      codec.receive call socket = .ok none socket' := by
  rw [Codec.receive]
  split
  · simp only [Codec.tryRecvEvent, bind, EStateM.bind, attempt]
    rcases hrun : codec.recv call.arrivals socket with ⟨event, socket'⟩ | ⟨error, socket'⟩
    · exact .inl rfl
    · rcases error with (_ | _) | _ | _
      · exact .inl rfl
      · exact .inr ⟨socket', rfl, rfl⟩
      · exact .inl rfl
      · exact .inl rfl
  · exact .inl rfl

theorem received_cons_of_some (calls : List RecvCall)
    (h : codec.recv call.arrivals socket = .ok (some message) socket') :
    codec.received (call :: calls) socket = message :: codec.received calls socket' := by
  rcases receive_eq codec call socket with heq | ⟨_, htimedOut, -⟩
  · simp only [Codec.received, heq, h]
  · rw [h] at htimedOut
    cases htimedOut

theorem received_cons_of_none (calls : List RecvCall)
    (h : codec.recv call.arrivals socket = .ok none socket' ∨
    codec.recv call.arrivals socket = .error (.io .timedOut) socket') :
    codec.received (call :: calls) socket = codec.received calls socket' := by
  rcases receive_eq codec call socket with heq | ⟨_, htimedOut, heq⟩
  · rcases h with h | h <;> simp only [Codec.received, heq, h]
  · rcases h with h | h <;> rw [h] at htimedOut <;> cases htimedOut
    simp only [Codec.received, heq]

theorem timeoutsKeep_cons : codec.TimeoutsKeep (call :: calls) socket ↔
    (∀ socket', codec.recv call.arrivals socket = .error (.io .timedOut) socket' →
      socket' = socket) ∧
      codec.TimeoutsKeep calls (endState (codec.recv call.arrivals) socket) := by
  rw [Codec.TimeoutsKeep]
  rcases receive_eq codec call socket with heq | ⟨socket', htimedOut, heq⟩
  · rw [endState, heq, ← endState]
  · rw [endState_of_returns heq, endState_of_fails htimedOut]

/-- A call that returns the next message leaves the frames of the others. -/
theorem framingSurvives_cons_of_some (h : codec.recv call.arrivals
      { unread := (codec.writes (message :: messages)).flatten, closed } =
        .ok (some message) { unread := (codec.writes messages).flatten, closed }) :
    codec.FramingSurvives (message :: messages) closed (call :: calls) ↔
      codec.FramingSurvives messages closed calls := by
  have hreceived := received_cons_of_some calls h
  have htimeouts : codec.TimeoutsKeep (call :: calls)
      { unread := (codec.writes (message :: messages)).flatten, closed } ↔
      codec.TimeoutsKeep calls { unread := (codec.writes messages).flatten, closed } := by
    rw [timeoutsKeep_cons, endState_of_returns h, h]
    simp
  constructor
  · rintro ⟨hreceives, hkeep⟩
    rw [hreceived, List.cons_prefix_cons] at hreceives
    exact ⟨hreceives.2, htimeouts.mp hkeep⟩
  · rintro ⟨hreceives, hkeep⟩
    refine ⟨?_, htimeouts.mpr hkeep⟩
    rw [hreceived, List.cons_prefix_cons]
    exact ⟨rfl, hreceives⟩

/-- So does a call that returns nothing and takes nothing. -/
theorem framingSurvives_cons_of_none (h : codec.recv call.arrivals
        { unread := (codec.writes messages).flatten, closed } =
          .ok none { unread := (codec.writes messages).flatten, closed } ∨
      codec.recv call.arrivals { unread := (codec.writes messages).flatten, closed } =
        .error (.io .timedOut) { unread := (codec.writes messages).flatten, closed }) :
    codec.FramingSurvives messages closed (call :: calls) ↔
      codec.FramingSurvives messages closed calls := by
  have hreceived := received_cons_of_none calls h
  have htimeouts : codec.TimeoutsKeep (call :: calls)
      { unread := (codec.writes messages).flatten, closed } ↔
      codec.TimeoutsKeep calls { unread := (codec.writes messages).flatten, closed } := by
    rw [timeoutsKeep_cons]
    rcases h with h | h
    · rw [endState_of_returns h, h]
      simp
    · rw [endState_of_fails h, h]
      simp
  constructor
  · rintro ⟨hreceives, hkeep⟩
    exact ⟨hreceived ▸ hreceives, htimeouts.mp hkeep⟩
  · rintro ⟨hreceives, hkeep⟩
    exact ⟨hreceived ▸ hreceives, htimeouts.mpr hkeep⟩

/-- A call that times out with bytes in its hands loses them. -/
theorem not_framingSurvives_cons (h : codec.recv call.arrivals
      { unread := (codec.writes messages).flatten, closed } = .error (.io .timedOut) socket')
    (hlost : socket'.unread.length < (codec.writes messages).flatten.length) :
    ¬ codec.FramingSurvives messages closed (call :: calls) := by
  rintro ⟨-, hkeep⟩
  rw [(timeoutsKeep_cons.mp hkeep).1 socket' h] at hlost
  exact Nat.lt_irrefl _ hlost

theorem arriveWhole_nil (calls : List RecvCall) : codec.ArriveWhole [] calls := by
  cases calls <;> trivial

/-- **Framing and timeouts.** Every message survives exactly if every call finds nothing in time or
the whole of a frame. -/
theorem framingSurvives_iff_arriveWhole (hcodec : codec.RoundTrips) (hfits : codec.Fits messages)
    (calls : List RecvCall) :
    codec.FramingSurvives messages closed calls ↔ codec.ArriveWhole messages calls := by
  induction calls generalizing messages with
  | nil =>
    refine iff_of_true ⟨List.nil_prefix, trivial⟩ ?_
    cases messages <;> trivial
  | cons call calls ih =>
    cases messages with
    | nil =>
      rw [framingSurvives_cons_of_none, ih hfits]
      · exact iff_of_true (arriveWhole_nil _) (arriveWhole_nil _)
      · show codec.recv _ { unread := [], closed } = _ ∨ codec.recv _ { unread := [], closed } = _
        rw [recv_of_nil]
        cases closed
        · exact .inr rfl
        · exact .inl rfl
    | cons message messages =>
      have hlen := hfits message List.mem_cons_self
      have hunread : (codec.writes (message :: messages)).flatten =
          toBeBytes (codec.toVec message).length ++
            (codec.toVec message ++ (codec.writes messages).flatten) := by
        rw [Codec.writes_cons hfits, List.flatten_cons, List.flatten_cons]
      -- A call finds less than the header, less than the payload, or both of them.
      rw [Codec.ArriveWhole]
      rcases Nat.lt_or_ge call.arrivals.header 4 with hheader | hheader
      · have hrecv : codec.recv call.arrivals
            { unread := (codec.writes (message :: messages)).flatten, closed } = _ :=
          recv_of_header_timedOut hheader (by rw [hunread]; simp)
        rcases Nat.eq_zero_or_pos call.arrivals.header with hzero | hpos
        · rw [hzero, List.drop_zero] at hrecv
          rw [framingSurvives_cons_of_none (.inr hrecv), ih hfits, hzero]
          simp
        · refine iff_of_false (not_framingSurvives_cons hrecv ?_) (by omega)
          rw [List.length_drop, hunread, List.length_append, length_toBeBytes]
          omega
      · rcases Nat.lt_or_ge call.arrivals.payload (codec.toVec message).length with hpayload | hpayload
        · have hrecv : codec.recv call.arrivals { unread := toBeBytes _ ++
              (codec.toVec message ++ (codec.writes messages).flatten), closed } = _ :=
            recv_of_payload_timedOut hlen hheader hpayload
          rw [← hunread] at hrecv
          refine iff_of_false (not_framingSurvives_cons hrecv ?_) (by omega)
          rw [List.length_drop, hunread]
          simp only [List.length_append, length_toBeBytes]
          omega
        · have hrecv : codec.recv call.arrivals { unread := toBeBytes _ ++
              (codec.toVec message ++ (codec.writes messages).flatten), closed } = _ :=
            recv_of_payload hlen hheader hpayload
          rw [← hunread, hcodec] at hrecv
          rw [framingSurvives_cons_of_some hrecv, ih hfits.tail]
          constructor
          · exact fun hrest => .inr ⟨hheader, hpayload, hrest⟩
          · rintro (⟨hzero, -⟩ | ⟨-, -, hrest⟩)
            · omega
            · exact hrest

end

/-- The first call gets half of a header, which the second lacks. -/
def splitCalls : List RecvCall := [
  { arrivals := { header := 2, payload := 0 }, asEvent := true },
  { arrivals := .all, asEvent := true }]

/-- A frame of which the first call gets two bytes. -/
theorem not_framingSurvives_splitCalls :
    ¬ plainCodec.FramingSurvives [.pong] false splitCalls := by
  have hwrites := Codec.writes_cons (plainCodec_fits [.pong])
  refine not_framingSurvives_cons (recv_of_header_timedOut (by decide) ?_) ?_
  · rw [hwrites]
    simp
  · rw [hwrites, List.length_drop, List.flatten_cons, List.length_append, length_toBeBytes]
    show 4 + _ - 2 < 4 + _
    omega

theorem framingSurvives_iff_arriveWhole_splitCalls :
    plainCodec.FramingSurvives [.pong] false splitCalls ↔
      plainCodec.ArriveWhole [.pong] splitCalls :=
  framingSurvives_iff_arriveWhole plainCodec_roundTrips (plainCodec_fits _) splitCalls

/-! ### Clones -/

section

variable {ι M : Type} [DecidableEq ι]

/-- The stream that the clones write to, when each still has the given buffers to write and they
take turns as the schedule says, until all is written. -/
inductive Interleaves : (ι → List Bytes) → List ι → Bytes → Prop where
  | done {pending} : (∀ i, pending i = []) → Interleaves pending [] []
  | write {pending i buffer rest schedule bytes} : pending i = buffer :: rest →
      Interleaves (Function.update pending i rest) schedule bytes →
      Interleaves pending (i :: schedule) (buffer ++ bytes)

/-- Receive until the stream ends, but not more than a number of messages. -/
def Codec.recvUntilEof (codec : Codec M) : Nat → EStateM RecvError Socket (List M)
  | 0 => return []
  | fuel + 1 => do
    match ← codec.recv .all with
    | none => return []
    | some message => return message :: (← codec.recvUntilEof fuel)

/-- **The peer decodes what was sent**: every event once, those of each clone in their order, and
then the end of the stream. -/
def Codec.DecodesAll (codec : Codec M) (events : ι → List M) (bytes : Bytes) : Prop :=
  ∃ order : List (ι × M), (∀ i, (order.filter fun event => event.1 = i).map Prod.snd = events i) ∧
    ∃ socket, codec.recvUntilEof (order.length + 1) { unread := bytes, closed := true } =
      .ok (order.map Prod.snd) socket

/-- The two writes of every frame come one right after the other. -/
inductive Unbroken : List ι → Prop where
  | nil : Unbroken []
  | frame {i schedule} : Unbroken schedule → Unbroken (i :: i :: schedule)

variable {codec : Codec M} {events : ι → List M} {schedule : List ι} {bytes : Bytes}

theorem writes_update (i : ι) (message : M) (messages : List M)
    (hevents : events i = message :: messages) (hfits : ∀ i, codec.Fits (events i)) :
    codec.writes (events i) = toBeBytes (codec.toVec message).length :: codec.toVec message ::
      codec.writes messages ∧
    Function.update (fun i => codec.writes (events i)) i (codec.writes messages) =
      fun j => codec.writes (Function.update events i messages j) := by
  constructor
  · have hi := hfits i
    rw [hevents] at hi ⊢
    exact Codec.writes_cons hi
  · funext j
    by_cases hj : j = i
    · subst hj
      rw [Function.update_self, Function.update_self]
    · rw [Function.update_of_ne hj, Function.update_of_ne hj]

theorem fits_update {i : ι} {message : M} {messages : List M} (hfits : ∀ i, codec.Fits (events i))
    (hevents : events i = message :: messages) (j : ι) :
    codec.Fits (Function.update events i messages j) := by
  by_cases hj : j = i
  · subst hj
    rw [Function.update_self]
    have hall := hfits j
    rw [hevents] at hall
    exact hall.tail
  · rw [Function.update_of_ne hj]
    exact hfits j

/-- What a clone still has to write is still to come. -/
theorem Interleaves.length_le {pending : ι → List Bytes} (h : Interleaves pending schedule bytes)
    (i : ι) {buffer : Bytes} (hmem : buffer ∈ pending i) : buffer.length ≤ bytes.length := by
  induction h with
  | done hempty =>
    rw [hempty i] at hmem
    cases hmem
  | @write pending j written rest schedule bytes hj _ ih =>
    rw [List.length_append]
    by_cases hi : i = j
    · subst hi
      rw [hj] at hmem
      rcases List.mem_cons.mp hmem with rfl | hmem
      · omega
      · have hle := ih (by rwa [Function.update_self])
        omega
    · have hle := ih (by rwa [Function.update_of_ne hi])
      omega

/-- The next two writes: a header, and after it the payload or what another clone writes. -/
theorem Interleaves.cases_frame
    (h : Interleaves (fun i => codec.writes (events i)) schedule bytes)
    (hfits : ∀ i, codec.Fits (events i)) :
    (schedule = [] ∧ bytes = [] ∧ ∀ i, events i = []) ∨
    ∃ i message messages, events i = message :: messages ∧
      ((∃ schedule' bytes', schedule = i :: i :: schedule' ∧
        bytes = toBeBytes (codec.toVec message).length ++ (codec.toVec message ++ bytes') ∧
        Interleaves (fun j => codec.writes (Function.update events i messages j)) schedule' bytes') ∨
      ∃ j schedule' len bytes', j ≠ i ∧ schedule = i :: j :: schedule' ∧ len ≤ maxMsg ∧
        (codec.toVec message).length ≤ bytes'.length ∧
        bytes = toBeBytes (codec.toVec message).length ++ (toBeBytes len ++ bytes')) := by
  have hnonempty : ∀ {i buffer rest}, codec.writes (events i) = buffer :: rest →
      ∃ message messages, events i = message :: messages := by
    intro i buffer rest hi
    cases hevents : events i with
    | nil =>
      rw [hevents] at hi
      cases hi
    | cons message messages => exact ⟨message, messages, rfl⟩
  cases h with
  | done hempty =>
    refine .inl ⟨rfl, rfl, fun i => ?_⟩
    by_contra hne
    obtain ⟨message, messages, hevents⟩ := List.exists_cons_of_ne_nil hne
    obtain ⟨hwrites, -⟩ := writes_update i message messages hevents hfits
    cases hwrites.symm.trans (hempty i)
  | @write _ i buffer rest _ _ hi hrest =>
    obtain ⟨message, messages, hevents⟩ := hnonempty hi
    obtain ⟨hwrites, hupdate⟩ := writes_update i message messages hevents hfits
    obtain ⟨rfl, rfl⟩ := List.cons.inj (hi.symm.trans hwrites)
    refine .inr ⟨i, message, messages, hevents, ?_⟩
    cases hrest with
    | done hempty =>
      have hi' := hempty i
      rw [Function.update_self] at hi'
      cases hi'
    | @write _ j buffer rest schedule' bytes' hj hrest =>
      by_cases hji : j = i
      · subst hji
        rw [Function.update_self] at hj
        obtain ⟨rfl, rfl⟩ := List.cons.inj hj
        rw [Function.update_idem, hupdate] at hrest
        exact .inl ⟨schedule', bytes', rfl, rfl, hrest⟩
      · rw [Function.update_of_ne hji] at hj
        obtain ⟨message', messages', hevents'⟩ := hnonempty hj
        obtain ⟨hwrites', -⟩ := writes_update j message' messages' hevents' hfits
        obtain ⟨rfl, rfl⟩ := List.cons.inj (hj.symm.trans hwrites')
        have hfits' : (codec.toVec message').length ≤ maxMsg := by
          have hall := hfits j
          rw [hevents'] at hall
          exact hall message' List.mem_cons_self
        -- The payload of the first clone is still to come, so what follows is as long as it.
        refine .inr ⟨j, schedule', _, bytes', hji, rfl, hfits', hrest.length_le i ?_, rfl⟩
        rw [Function.update_of_ne (Ne.symm hji), Function.update_self]
        exact List.mem_cons_self

/-- A frame that is not broken is received. -/
theorem recvUntilEof_frame (hcodec : codec.RoundTrips) {message : M} {bytes : Bytes} (fuel : Nat)
    (hfits : (codec.toVec message).length ≤ maxMsg) :
    codec.recvUntilEof (fuel + 1) {
        unread := toBeBytes (codec.toVec message).length ++ (codec.toVec message ++ bytes)
        closed := true } =
      (do return message :: (← codec.recvUntilEof fuel) : EStateM RecvError Socket (List M))
        { unread := bytes, closed := true } := by
  have hrecv : codec.recv .all { unread := toBeBytes (codec.toVec message).length ++
      (codec.toVec message ++ bytes), closed := true } = _ := recv_of_payload hfits (Nat.le_refl _) hfits
  rw [hcodec] at hrecv
  simp only [Codec.recvUntilEof, bind, EStateM.bind, hrecv]

/-- A header after a header is read as the payload, which it cannot be. -/
theorem recvUntilEof_broken (hnull : codec.RejectsNull) {json bytes : Bytes} {len : Nat} (fuel : Nat)
    (hjson : json ≠ []) (hfits : json.length ≤ maxMsg) (hlen : len ≤ maxMsg)
    (hlong : json.length ≤ bytes.length) :
    ∃ socket, codec.recvUntilEof (fuel + 1) {
        unread := toBeBytes json.length ++ (toBeBytes len ++ bytes)
        closed := true } = .error .json socket := by
  obtain ⟨header, hheader⟩ := toBeBytes_eq_null_cons hlen
  -- what the reader takes for the payload
  obtain ⟨payload, hpayload⟩ : ∃ payload, (toBeBytes len ++ bytes).take json.length = 0 :: payload := by
    obtain ⟨n, hn⟩ := Nat.exists_eq_succ_of_ne_zero (mt List.length_eq_zero_iff.mp hjson)
    rw [hheader, hn]
    exact ⟨_, rfl⟩
  have hsplit : toBeBytes len ++ bytes =
      (toBeBytes len ++ bytes).take json.length ++ (toBeBytes len ++ bytes).drop json.length :=
    (List.take_append_drop _ _).symm
  have hlength : ((toBeBytes len ++ bytes).take json.length).length = json.length := by
    rw [List.length_take, List.length_append]
    omega
  rw [hpayload] at hsplit hlength
  have hrecv : codec.recv .all { unread := toBeBytes (0 :: payload).length ++ (0 :: payload ++
      (toBeBytes len ++ bytes).drop json.length), closed := true } = _ :=
    recv_of_payload (hlength ▸ hfits) (Nat.le_refl _) (hlength ▸ hfits)
  rw [hnull, hlength, ← hsplit] at hrecv
  simp only [Codec.recvUntilEof, bind, EStateM.bind, hrecv]
  exact ⟨_, rfl⟩

/-- With a frame that is broken the end of the stream is not reached. -/
theorem length_of_not_unbroken (hcodec : codec.RoundTrips) (hnull : codec.RejectsNull)
    (hnonempty : ∀ message, codec.toVec message ≠ []) (hfits : ∀ i, codec.Fits (events i))
    (h : Interleaves (fun i => codec.writes (events i)) schedule bytes)
    (hbroken : ¬ Unbroken schedule) (fuel : Nat) {messages : List M} {socket : Socket}
    (hreceived : codec.recvUntilEof fuel { unread := bytes, closed := true } = .ok messages socket) :
    messages.length = fuel := by
  induction fuel generalizing events schedule bytes messages with
  | zero =>
    cases hreceived
    rfl
  | succ fuel ih =>
    rcases h.cases_frame hfits with ⟨rfl, -, -⟩ | ⟨i, message, rest, hevents, hcases⟩
    · exact absurd .nil hbroken
    · have hmessage : (codec.toVec message).length ≤ maxMsg := by
        have hall := hfits i
        rw [hevents] at hall
        exact hall message List.mem_cons_self
      rcases hcases with ⟨schedule', bytes', rfl, rfl, hrest⟩ |
        ⟨j, schedule', len, bytes', -, rfl, hlen, hlong, rfl⟩
      · rw [recvUntilEof_frame hcodec fuel hmessage, returns_bind_iff] at hreceived
        obtain ⟨messages', socket', hreceived, hmessages⟩ := hreceived
        cases hmessages
        rw [List.length_cons, ih (fits_update hfits hevents) hrest
          (fun hunbroken => hbroken (.frame hunbroken)) hreceived]
      · obtain ⟨_, herror⟩ := recvUntilEof_broken hnull fuel (hnonempty message) hmessage hlen hlong
        rw [herror] at hreceived
        cases hreceived

/-- Frames that are not broken are decoded. -/
theorem Unbroken.decodesAll (hunbroken : Unbroken schedule) (hcodec : codec.RoundTrips)
    (hfits : ∀ i, codec.Fits (events i))
    (h : Interleaves (fun i => codec.writes (events i)) schedule bytes) :
    codec.DecodesAll events bytes := by
  induction hunbroken generalizing events bytes with
  | nil =>
    rcases h.cases_frame hfits with ⟨-, rfl, hempty⟩ | ⟨_, _, _, _, ⟨_, _, hnil, -⟩ | ⟨_, _, _, _, _, hnil, -⟩⟩
    · refine ⟨[], fun i => (hempty i).symm, { unread := [], closed := true }, ?_⟩
      have hrecv : codec.recv .all { unread := [], closed := true } = _ := recv_of_nil
      simp only [Codec.recvUntilEof, bind, EStateM.bind, hrecv]
      rfl
    · cases hnil
    · cases hnil
  | @frame i schedule _ ih =>
    rcases h.cases_frame hfits with ⟨hnil, -, -⟩ | ⟨i', message, messages, hevents, hcases⟩
    · cases hnil
    · rcases hcases with ⟨_, bytes', hschedule, rfl, hrest⟩ | ⟨_, _, _, _, hne, hschedule, -⟩
      · obtain ⟨rfl, hschedule⟩ := List.cons.inj hschedule
        obtain ⟨-, rfl⟩ := List.cons.inj hschedule
        obtain ⟨order, horder, socket, hreceived⟩ := ih (fits_update hfits hevents) hrest
        refine ⟨(i, message) :: order, fun j => ?_, socket, ?_⟩
        · have hj := horder j
          by_cases hji : i = j
          · subst hji
            rw [Function.update_self] at hj
            simp [hevents, hj]
          · rw [Function.update_of_ne (Ne.symm hji)] at hj
            simp [hji, hj]
        · have hmessage : (codec.toVec message).length ≤ maxMsg := by
            have hall := hfits i
            rw [hevents] at hall
            exact hall message List.mem_cons_self
          rw [List.length_cons, recvUntilEof_frame hcodec _ hmessage, returns_bind_iff]
          exact ⟨_, socket, hreceived, rfl⟩
      · obtain ⟨hi, hschedule⟩ := List.cons.inj hschedule
        obtain ⟨hj, -⟩ := List.cons.inj hschedule
        exact absurd (hj.symm.trans hi) hne

/-- **Clones.** The peer decodes what was sent exactly if no frame is broken. -/
theorem decodesAll_iff_unbroken (hcodec : codec.RoundTrips) (hnull : codec.RejectsNull)
    (hnonempty : ∀ message, codec.toVec message ≠ []) (hfits : ∀ i, codec.Fits (events i))
    (h : Interleaves (fun i => codec.writes (events i)) schedule bytes) :
    codec.DecodesAll events bytes ↔ Unbroken schedule := by
  refine ⟨fun hdecodes => ?_, fun hunbroken => hunbroken.decodesAll hcodec hfits h⟩
  by_contra hbroken
  obtain ⟨order, -, socket, hreceived⟩ := hdecodes
  have hlength := length_of_not_unbroken hcodec hnull hnonempty hfits h hbroken _ hreceived
  rw [List.length_map] at hlength
  omega

end

/-- Each of two clones sends an event, and both write their headers first. -/
def brokenSchedule : List Bool := [true, false, true, false]

theorem interleaves_brokenSchedule : ∃ bytes,
    Interleaves (fun _ => plainCodec.writes [.pong]) brokenSchedule bytes :=
  ⟨_, .write rfl (.write rfl (.write rfl (.write rfl (.done (by decide +kernel)))))⟩

/-- A frame is written into the middle of another. -/
theorem not_decodesAll_brokenSchedule : ∃ bytes,
    Interleaves (fun _ => plainCodec.writes [.pong]) brokenSchedule bytes ∧
      ¬ plainCodec.DecodesAll (fun _ : Bool => [.pong]) bytes := by
  obtain ⟨bytes, hbytes⟩ := interleaves_brokenSchedule
  refine ⟨bytes, hbytes, ?_⟩
  rintro ⟨order, -, socket, hreceived⟩
  have hbroken : ¬ Unbroken brokenSchedule := by
    rintro ⟨⟩
  have hlength := length_of_not_unbroken plainCodec_roundTrips plainCodec_rejectsNull
    plainCodec_nonempty (fun _ => plainCodec_fits _) hbytes hbroken _ hreceived
  rw [List.length_map] at hlength
  omega

theorem decodesAll_iff_unbroken_brokenSchedule : ∃ bytes,
    Interleaves (fun _ => plainCodec.writes [.pong]) brokenSchedule bytes ∧
      (plainCodec.DecodesAll (fun _ : Bool => [.pong]) bytes ↔ Unbroken brokenSchedule) := by
  obtain ⟨bytes, hbytes⟩ := interleaves_brokenSchedule
  exact ⟨bytes, hbytes, decodesAll_iff_unbroken plainCodec_roundTrips plainCodec_rejectsNull
    plainCodec_nonempty (fun _ => plainCodec_fits _) hbytes⟩

end Batty
