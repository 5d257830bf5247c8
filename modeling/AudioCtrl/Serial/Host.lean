import AudioCtrl.Foundations.Line
import AudioCtrl.Foundations.PartialRun
import AudioCtrl.Serial.Frame

/-!
# The host's receive loop

`main()` reads frames with `Com::receive` and answers the last slider with
`Com::send`. The loop is cut at every call into the port: one step is one
`ReadFile`, one `WaitCommEvent`, one `WriteFile` or the plain code between two
of them. How many bytes a `ReadFile` returns is the argument of the step, any
number from 0 to the number asked for; which bytes it returns is not free, they
are the next ones of the line. `WaitCommEvent` may return at any time, because
the event it waits for may be that of a byte that has been read already.
-/

namespace AudioCtrl.Serial

/-! ## `Com` -/

namespace Com

/-- `std::vector<uint8_t>::resize`: cut off, or fill up with zeros. -/
def resize (v : List UInt8) (n : ℕ) : List UInt8 := v.take n ++ List.replicate (n - v.length) 0

/-- `ReadFile` puts the bytes it got at the front of the memory it was given. -/
def readFile (memory got : List UInt8) : List UInt8 := got ++ memory.drop got.length

/-- `Com::receive`: zero the buffer, read, resize it to the number of bytes read. -/
def receive (buffer got : List UInt8) : List UInt8 :=
  resize (readFile (buffer.map fun _ => 0) got) got.length

@[simp] theorem length_resize (v : List UInt8) (n : ℕ) : (resize v n).length = n := by
  simp only [resize, List.length_append, List.length_take, List.length_replicate]
  omega

/-- Whatever the buffer held, it holds the bytes read afterwards. -/
@[simp] theorem receive_eq (buffer got : List UInt8) : receive buffer got = got := by
  simp [receive, resize, readFile]

end Com

/-! ## `main()` -/

/-- What the host does to the world around it. -/
inductive HostEvent where
  | waitCommEvent
  /-- `com.receive(buffer)` asked for `asked` bytes. -/
  | readPair (asked : ℕ) (got : List UInt8)
  /-- `com.receive(tempBuf)` asked for `asked` bytes. -/
  | readSkip (asked : ℕ) (got : List UInt8)
  | writeFile (bytes : List UInt8)
  | coutEndl
  | coutTab
  | coutSlider (slider value : ℕ)
  /-- The argument is `value / 1023.0f`. -/
  | setMainVolume (value : ℕ)
  deriving DecidableEq, Repr

/-- The place in `main()` that is executed next. -/
inductive HostPc where
  | firstSend
  | waitForData
  | receivePair
  | checkPair
  | receiveSkip
  | handlePair
  deriving DecidableEq, Repr

structure Host where
  pc : HostPc
  buffer : List UInt8
  tempBuf : List UInt8
  deriving DecidableEq, Repr

namespace Host

/-- Before `com.send(tempBuf)`, both vectors as they are declared. -/
def initial : Host := ⟨.firstSend, [0, 0], [0]⟩

variable (h : Host)

def slider : ℕ := sliderOf (h.buffer.getD 0 0)

def value : ℕ := valueOf (h.buffer.getD 0 0) (h.buffer.getD 1 0)

/-- The number of bytes the next step asks the port for. -/
def asks : ℕ :=
  match h.pc with
  | .receivePair => (Com.resize h.buffer 2).length
  | .receiveSkip => h.tempBuf.length
  | _ => 0

/-- What the loop body does with a pair it has accepted. -/
def handleEvents : List HostEvent :=
  [if h.slider = 0 then .coutEndl else .coutTab] ++
    (if h.slider = 5 then [.writeFile h.tempBuf] else []) ++
      [.coutSlider h.slider h.value] ++
        (if h.slider = 0 then [.setMainVolume h.value] else [])

/-- One step of `main()`; `got` is what `ReadFile` returns in it. -/
def step (got : List UInt8) : Host × List HostEvent :=
  match h.pc with
  | .firstSend => ({ h with pc := .waitForData }, [.writeFile h.tempBuf])
  | .waitForData => ({ h with pc := .receivePair }, [.waitCommEvent])
  | .receivePair =>
    let buffer := Com.resize h.buffer 2
    ({ h with pc := .checkPair, buffer := Com.receive buffer got }, [.readPair buffer.length got])
  | .checkPair =>
    if h.buffer.length = 0 then ({ h with pc := .waitForData }, [])
    else if h.buffer.length ≠ 2 then ({ h with pc := .receivePair }, [])
    else if rejects (h.buffer.getD 0 0) (h.buffer.getD 1 0) then
      ({ h with pc := .receiveSkip }, [])
    else ({ h with pc := .handlePair }, [])
  | .receiveSkip =>
    ({ h with pc := .receivePair, tempBuf := Com.receive h.tempBuf got },
      [.readSkip h.tempBuf.length got])
  | .handlePair => ({ h with pc := .receivePair }, h.handleEvents)

end Host

namespace HostEvent

def written : HostEvent → List UInt8
  | writeFile bytes => bytes
  | _ => []

def decoded : HostEvent → Option (ℕ × ℕ)
  | coutSlider slider value => some (slider, value)
  | _ => none

end HostEvent

/-! ## The loop at the end of its line -/

/-- `main()` with the line it reads from. The trace stamps each event with the
number of bytes read so far. -/
structure Receiver where
  host : Host
  replies : Line UInt8
  trace : List (ℕ × HostEvent)
  deriving DecidableEq, Repr

namespace Receiver

def start (stream : List UInt8) : Receiver := ⟨Host.initial, Line.holding stream, []⟩

variable (r : Receiver)

def outputs (count : ℕ) : List HostEvent := (r.host.step (r.replies.arrived.take count)).2

def emit (host : Host) (events : List HostEvent) : Receiver :=
  ⟨host, r.replies, r.trace ++ events.map fun e => (r.replies.taken.length, e)⟩

/-- One step of `main()` in which `ReadFile` returns `count` bytes. -/
def step (count : ℕ) : Option Receiver :=
  if count ≤ r.host.asks ∧ count ≤ r.replies.arrived.length then
    some (Receiver.emit { r with replies := r.replies.take count }
      (r.host.step (r.replies.arrived.take count)).1 (r.outputs count))
  else none

/-- The decoded pairs, each with the place of its first byte in the stream. -/
def decodedAt : List (ℕ × ℕ × ℕ) :=
  r.trace.filterMap fun p => p.2.decoded.map fun d => (p.1 - 2, d)

def decoded : List (ℕ × ℕ) := r.decodedAt.map Prod.snd

def written : List UInt8 := r.trace.flatMap fun p => p.2.written

end Receiver
end AudioCtrl.Serial
