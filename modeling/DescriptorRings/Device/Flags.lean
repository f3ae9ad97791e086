/-!
# Words whose bits have names

Descriptors, completions and control registers carry words in which single bits have a meaning.  A
`FlagTable` lists the names of a word's bits in the order in which they are shown.  The words stay
plain thirty-two-bit words: an adapter may set a bit that no table names, and such a bit is kept,
compared and shown, never lost.

A word is shown as the names of its bits in the order of the table, followed by whatever has no
name as one hexadecimal number.
-/

namespace DescriptorRings

/-- The named bits of one kind of word. -/
structure FlagTable where
  /-- What this kind of word is called. -/
  name : String
  /-- Names and bits, in the order in which they are shown. -/
  flags : List (String × UInt32)

namespace FlagTable

/-- All bits that have a name. -/
def all (t : FlagTable) : UInt32 := t.flags.foldl (fun acc f => acc ||| f.2) 0

/-- The named bits of a word. -/
def restrict (t : FlagTable) (w : UInt32) : UInt32 := w &&& t.all

/-- The bits of a word that have no name. -/
def rest (t : FlagTable) (w : UInt32) : UInt32 := w &&& ~~~t.all

/-- Whether every bit of a word has a name. -/
def isKnown (t : FlagTable) (w : UInt32) : Bool := t.rest w == 0

/-- Whether a word has every bit that has a name, and perhaps others. -/
def isAll (t : FlagTable) (w : UInt32) : Bool := w &&& t.all == t.all

end FlagTable

/-- Whether a word has all bits of `bits`. -/
def hasBits (w bits : UInt32) : Bool := w &&& bits == bits

/-- Whether a word shares a bit with `bits`. -/
def meetsBits (w bits : UInt32) : Bool := w &&& bits != 0

theorem and_or_distrib (w a b : UInt32) : w &&& (a ||| b) = w &&& a ||| w &&& b := by
  rw [← UInt32.toBitVec_inj]
  exact BitVec.and_or_distrib_left

/-! ## Hexadecimal digits -/

/-- A number in base sixteen, with lower-case digits. -/
def hexLower (n : Nat) : String := String.ofList (Nat.toDigits 16 n)

/-- A number in base sixteen, with upper-case digits. -/
def hexUpper (n : Nat) : String := String.ofList ((Nat.toDigits 16 n).map Char.toUpper)

namespace FlagTable

/-- The terms by which a word is shown. -/
def terms (t : FlagTable) (w : UInt32) : List String :=
  let named := (t.flags.filter fun f => hasBits w f.2).map Prod.fst
  if t.isKnown w then named else named ++ ["0x" ++ hexLower (t.rest w).toNat]

/-- How a word is shown. -/
def describe (t : FlagTable) (w : UInt32) : String :=
  let body := if w == 0 then "0x0" else String.intercalate " | " (t.terms w)
  t.name ++ "(" ++ body ++ ")"

end FlagTable

/-! ## The four kinds of word -/

namespace TxFlags

/-- The descriptor opens a frame. -/
def first : UInt32 := 1

/-- The descriptor closes a frame. -/
def last : UInt32 := 2

/-- The adapter appends the checksum of the frame. -/
def appendCrc : UInt32 := 4

/-- The control bits of a transmit descriptor. -/
def table : FlagTable := ⟨"TxFlags", [("FIRST", first), ("LAST", last), ("APPEND_CRC", appendCrc)]⟩

end TxFlags

namespace RxStatus

/-- The buffer holds the start of a frame. -/
def startOfPacket : UInt32 := 1

/-- The buffer holds the end of a frame. -/
def endOfPacket : UInt32 := 2

/-- The checksum did not match. -/
def crcError : UInt32 := 4

/-- The adapter's queue ran over. -/
def overrun : UInt32 := 8

/-- The frame was no whole number of bytes. -/
def nonOctet : UInt32 := 16

/-- The frame was longer than allowed. -/
def tooLong : UInt32 := 32

/-- The line reported an error. -/
def rxError : UInt32 := 64

/-- Every bit that reports an error. -/
def errors : UInt32 := crcError ||| overrun ||| nonOctet ||| tooLong ||| rxError

/-- The bits that delimit a frame held by a single buffer. -/
def wholeFrame : UInt32 := startOfPacket ||| endOfPacket

/-- The status bits of a completion. -/
def table : FlagTable :=
  ⟨"RxStatus",
    [("SOP", startOfPacket), ("EOP", endOfPacket), ("CRC_ERROR", crcError), ("OVERRUN", overrun),
      ("NON_OCTET", nonOctet), ("TOO_LONG", tooLong), ("RX_ERROR", rxError)]⟩

end RxStatus

namespace IrqMask

/-- Transmit descriptors were consumed. -/
def txDone : UInt32 := 1

/-- Receive descriptors were filled. -/
def rxDone : UInt32 := 2

/-- The interrupt causes. -/
def table : FlagTable := ⟨"IrqMask", [("TX_DONE", txDone), ("RX_DONE", rxDone)]⟩

end IrqMask

namespace DmaControl

/-- The direction is switched on. -/
def enable : UInt32 := 1

/-- The direction is switched off. -/
def off : UInt32 := 0

/-- The bits of a control register. -/
def table : FlagTable := ⟨"DmaControl", [("ENABLE", enable)]⟩

end DmaControl

end DescriptorRings
