import CellMachine.Failure

/-! # Sinks

A sink takes bytes, one chunk per call, and may fail after it has taken a part of a chunk. A
sticky writer remembers the first failure of the sink behind it: from then on every call has that
failure and the sink hears nothing more, so that a long text can be written without looking at
each call.
-/

namespace CellMachine

open Text

/-- What became of one call: the number of bytes taken, and the failure if there was one. -/
structure Taken where
  count : Nat
  failure : Option Failure := none
  deriving DecidableEq, Repr

/-- Something with a state that takes chunks of bytes. -/
abbrev Sink (σ : Type) := List UInt8 → σ → Taken × σ

/-- A sink together with its first failure, if it has had one. -/
structure Sticky (σ : Type) where
  device : σ
  failure : Option Failure := none

variable {σ : Type}

namespace Sticky

/-- Passes a chunk on to the sink, unless it has failed before. -/
def write (sink : Sink σ) (chunk : List UInt8) (w : Sticky σ) : Taken × Sticky σ :=
  match w.failure with
  | some f => (⟨0, some f⟩, w)
  | none =>
    match sink chunk w.device with
    | (⟨count, none⟩, device) => (⟨count, none⟩, ⟨device, none⟩)
    | (⟨count, some f⟩, device) =>
      (⟨count, some (f.within .writeFailed)⟩, ⟨device, some (f.within .writeFailed)⟩)

def writeAll (sink : Sink σ) : List (List UInt8) → Sticky σ → Option Failure × Sticky σ
  | [], w => (w.failure, w)
  | chunk :: rest, w =>
    match w.write sink chunk with
    | (⟨_, some f⟩, w) => (some f, w)
    | (⟨_, none⟩, w) => writeAll sink rest w

/-- The chunks of a row of cells: each cell is one, the separator in front of all but the first. -/
def cellChunks (separator : List UInt8) : List Cell → List (List UInt8)
  | [] => []
  | cell :: rest =>
    Utf8.encode (Decimal.ofCell cell) ::
      rest.map fun cell => separator ++ Utf8.encode (Decimal.ofCell cell)

def writeCells (sink : Sink σ) (separator : List UInt8) (cells : List Cell) (w : Sticky σ) :
    Option Failure × Sticky σ :=
  writeAll sink (cellChunks separator cells) w

def clear (w : Sticky σ) : Sticky σ :=
  { w with failure := none }

end Sticky

/-- A place to write to: a sink as it is, or one behind a sticky writer. -/
inductive Outlet (σ : Type) where
  | plain (device : σ)
  | sticky (w : Sticky σ)

namespace Outlet

/-- The sticky writer for an outlet; one that is sticky already stays as it is. -/
def guarded : Outlet σ → Sticky σ
  | plain device => { device }
  | sticky w => w

def isSticky : Outlet σ → Bool
  | plain _ => false
  | sticky _ => true

end Outlet

/-- A sink in memory that keeps what it takes and can be made to refuse one call. -/
structure Recorder where
  bytes : Array UInt8 := #[]
  /-- The number of calls received. -/
  calls : Nat := 0
  /-- The number of the call to refuse, counted from zero. -/
  refuse : Option Nat := none
  /-- The number of bytes taken from the refused call. -/
  short : Nat := 0

namespace Recorder

/-- Takes a chunk, or its first bytes only when the call is the one to refuse. -/
def write : Sink Recorder := fun chunk r =>
  if r.refuse = some r.calls then
    let kept := chunk.take r.short
    (⟨kept.length, some ⟨.device "disk full", []⟩⟩,
      { r with bytes := r.bytes ++ kept.toArray, calls := r.calls + 1 })
  else
    (⟨chunk.length, none⟩, { r with bytes := r.bytes ++ chunk.toArray, calls := r.calls + 1 })

def text (r : Recorder) : String :=
  Symbol.toText (Utf8.decode r.bytes.toList)

end Recorder

end CellMachine
