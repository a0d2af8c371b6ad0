import BrokerCluster.Text.Utf8

/-!
# Lines on a byte stream

Both ends of every connection exchange lines. A line ends at a line feed, and
one carriage return directly before it is dropped. When the stream ends, bytes
left over are a line too, unless they are a single carriage return. Reading
refuses a line longer than the limit and a line that is not UTF-8; writing adds
a line feed and neither limits nor changes the text.
-/
namespace BrokerCluster.Wire

inductive LineFault where
  | tooLong
  | notUtf8
  deriving DecidableEq, Repr

/-- The most bytes a line may have before its line feed. -/
def lineLimit : Nat := 65536

def lineFeed : UInt8 := 0x0A

/-- The byte dropped before a line feed. -/
def carriageReturn : UInt8 := 0x0D

/-- What the front of a byte stream holds. -/
inductive LineRead where
  /-- A line, and the bytes after it. -/
  | line (text : String) (rest : List UInt8)
  /-- Nothing: the stream is at its end. -/
  | ended
  /-- Bytes that are no line. -/
  | fault (reason : LineFault)
  deriving DecidableEq, Repr

def dropCarriageReturn (bytes : List UInt8) : List UInt8 :=
  if bytes.getLast? = some carriageReturn then bytes.dropLast else bytes

/-- The text of a line's bytes, given the bytes that follow the line. -/
def lineOfBytes (bytes rest : List UInt8) : LineRead :=
  match Text.decode? (dropCarriageReturn bytes) with
  | some text => .line text rest
  | none => .fault .notUtf8

/-- Reads the first line of a stream whose writer has finished. -/
def readLine (bytes : List UInt8) : LineRead :=
  let front := bytes.takeWhile (· != lineFeed)
  if front.length > lineLimit then .fault .tooLong
  else match bytes.dropWhile (· != lineFeed) with
    | _ :: rest => lineOfBytes front rest
    | [] => if front = [] ∨ front = [carriageReturn] then .ended else lineOfBytes front []

/-- Whether the first line, or the fault in its place, is known although more bytes may come. -/
def hasLine (bytes : List UInt8) : Bool := bytes.contains lineFeed || lineLimit < bytes.length

theorem bne_lineFeed {front : List UInt8} (h : lineFeed ∉ front) :
    ∀ b ∈ front, (b != lineFeed) = true :=
  fun _ hb => bne_iff_ne.2 fun he => h (he ▸ hb)

/-- A stream that goes on with a line feed after bytes that hold none. -/
theorem readLine_append_lineFeed {front : List UInt8} (h : lineFeed ∉ front) (rest : List UInt8) :
    readLine (front ++ lineFeed :: rest) =
      if front.length > lineLimit then .fault .tooLong else lineOfBytes front rest := by
  rw [readLine, List.takeWhile_append_of_pos (bne_lineFeed h),
    List.dropWhile_append_of_pos (bne_lineFeed h)]
  simp

def writeLine (text : String) : List UInt8 := Text.encode text ++ [lineFeed]

def writeLines (texts : List String) : List UInt8 := texts.flatMap writeLine

theorem readLine_rest_length {bytes rest : List UInt8} {text : String}
    (h : readLine bytes = .line text rest) : rest.length < bytes.length := by
  have hsplit := List.takeWhile_append_dropWhile (p := (· != lineFeed)) (l := bytes)
  have hlen := congrArg List.length hsplit
  rw [List.length_append] at hlen
  simp only [readLine, lineOfBytes] at h
  split at h
  · simp at h
  · split at h
    · next b tail hdrop =>
      split at h
      · cases h
        rw [hdrop, List.length_cons] at hlen
        omega
      · simp at h
    · next hdrop =>
      split at h
      · simp at h
      · next hfront =>
        split at h
        · cases h
          rw [hdrop] at hlen
          have : bytes.takeWhile (· != lineFeed) ≠ [] := fun he => hfront (Or.inl he)
          have := List.length_pos_iff.2 this
          simp only [List.length_nil] at hlen ⊢
          omega
        · simp at h

/-- Every line of a finished stream, up to the first fault, and that fault. -/
def readLines (bytes : List UInt8) : List String × Option LineFault :=
  match h : readLine bytes with
  | .line text rest =>
    have := readLine_rest_length h
    let (texts, fault) := readLines rest
    (text :: texts, fault)
  | .ended => ([], none)
  | .fault reason => ([], some reason)
termination_by bytes.length

end BrokerCluster.Wire
