
/-!
Machines that read one item at a time and write some of another kind, and the
streaming decoder of UTF-8 as one of them. A machine that reads its input in
parts writes what it writes when it reads it whole.
-/
namespace CodexMultiAuth.Transducer
universe u v w

variable {State : Type u} {In : Type v} {Out : Type w}

/-- Reads a list from a state: the state after it and what was written. -/
def run (step : State → In → State × List Out) : State → List In → State × List Out
  | state,[] => (state,[])
  | state,item :: rest =>
    let next := step state item
    let later := run step next.1 rest
    (later.1,next.2 ++ later.2)

variable (step : State → In → State × List Out)

@[simp] theorem run_nil (state : State) : run step state [] = (state,[]) := rfl

theorem run_cons (state : State) (item : In) (rest : List In) :
    run step state (item :: rest) = ((run step (step state item).1 rest).1,(step state item).2 ++ (run step (step state item).1 rest).2) := rfl

theorem run_append (state : State) (first second : List In) :
    run step state (first ++ second) =
      ((run step (run step state first).1 second).1,(run step state first).2 ++ (run step (run step state first).1 second).2) := by
  induction first generalizing state with
  | nil => rfl
  | cons item rest ih =>
    rw [List.cons_append,run_cons,run_cons,ih]
    simp only [List.append_assoc]

end CodexMultiAuth.Transducer

namespace CodexMultiAuth.Utf8
open Transducer

/-- U+FFFD, which stands for bytes that are not UTF-8. -/
def replacement : Char := '\uFFFD'

/-- The decoder of the encoding standard: the character so far, the bytes of it
    that were seen and are needed, and the bounds of the next one. -/
structure Decoder where
  codePoint : Nat := 0
  bytesSeen : Nat := 0
  bytesNeeded : Nat := 0
  lowerBoundary : Nat := 0x80
  upperBoundary : Nat := 0xBF
  deriving DecidableEq

/-- A byte that begins a character. -/
def leading (byte : Nat) : Decoder × List Char :=
  if byte ≤ 0x7F then ({},[Char.ofNat byte])
  else if 0xC2 ≤ byte ∧ byte ≤ 0xDF then ({ bytesNeeded := 1,codePoint := byte % 0x20 },[])
  else if 0xE0 ≤ byte ∧ byte ≤ 0xEF then
    ({ bytesNeeded := 2
       codePoint := byte % 0x10
       lowerBoundary := if byte = 0xE0 then 0xA0 else 0x80
       upperBoundary := if byte = 0xED then 0x9F else 0xBF },[])
  else if 0xF0 ≤ byte ∧ byte ≤ 0xF4 then
    ({ bytesNeeded := 3
       codePoint := byte % 8
       lowerBoundary := if byte = 0xF0 then 0x90 else 0x80
       upperBoundary := if byte = 0xF4 then 0x8F else 0xBF },[])
  else ({},[replacement])

/-- One byte. A byte that cannot continue a character ends it and is read again. -/
def step (decoder : Decoder) (byte : UInt8) : Decoder × List Char :=
  if decoder.bytesNeeded = 0 then leading byte.toNat
  else if byte.toNat < decoder.lowerBoundary ∨ decoder.upperBoundary < byte.toNat then
    ((leading byte.toNat).1,replacement :: (leading byte.toNat).2)
  else
    let codePoint := decoder.codePoint * 0x40 + byte.toNat % 0x40
    if decoder.bytesSeen + 1 = decoder.bytesNeeded then ({},[Char.ofNat codePoint])
    else ({ codePoint,bytesSeen := decoder.bytesSeen + 1,bytesNeeded := decoder.bytesNeeded },[])

/-- The end of the input: a character that was begun is not UTF-8. -/
def flush (decoder : Decoder) : List Char := if decoder.bytesNeeded = 0 then [] else [replacement]

/-- A decoder with the byte order mark it drops at the start. -/
structure TextDecoder where
  decoder : Decoder := {}
  bomSeen : Bool := false
  deriving DecidableEq

def serialize (bomSeen : Bool) (text : List Char) : List Char :=
  if bomSeen then text
  else
    match text with
    | [] => []
    | c :: rest => if c = '\uFEFF' then rest else c :: rest

def TextDecoder.read (decoder : TextDecoder) (byte : UInt8) : TextDecoder × List Char :=
  let next := Utf8.step decoder.decoder byte
  (⟨next.1,decoder.bomSeen || !next.2.isEmpty⟩,serialize decoder.bomSeen next.2)

/-- `decode(chunk, { stream: true })` -/
def TextDecoder.decode (decoder : TextDecoder) (chunk : List UInt8) : TextDecoder × List Char := run TextDecoder.read decoder chunk

/-- `decode()` -/
def TextDecoder.finish (decoder : TextDecoder) : List Char := serialize decoder.bomSeen (flush decoder.decoder)

def decodeAll (bytes : List UInt8) : List Char := ((({} : TextDecoder).decode bytes).2) ++ ((({} : TextDecoder).decode bytes).1).finish

theorem TextDecoder.decode_append (decoder : TextDecoder) (first second : List UInt8) :
    decoder.decode (first ++ second) =
      (((decoder.decode first).1.decode second).1,(decoder.decode first).2 ++ ((decoder.decode first).1.decode second).2) :=
  run_append _ _ _ _

end CodexMultiAuth.Utf8
