import CellMachine.Memory.Dump
import CellMachine.Proofs.Text.Utf8

/-! # Deliveries

A delivery is one call on a sink: the chunk it was given, and what became of it. Chunks that go
through a sticky writer are delivered in order until a call fails; that call is the last, and its
failure is what the writer answers from then on. A dump looks at the outcome of its last chunk only,
and is nevertheless the same as writing all of its chunks with a look at each, since the writer
keeps the failure in between.
-/

namespace CellMachine

open Text

variable {σ : Type}

/-- A call on a sink. -/
structure Delivery where
  chunk : List UInt8
  taken : Taken
  deriving DecidableEq, Repr

/-- A sink with a log of the calls it receives. -/
def Sink.logged (sink : Sink σ) : Sink (σ × List Delivery) := fun chunk (device, log) =>
  let (taken, after) := sink chunk device
  (taken, after, log ++ [⟨chunk, taken⟩])

/-- Chunks are delivered up to the first call that fails, and its failure is the outcome. -/
inductive Delivered : List (List UInt8) → List Delivery → Option Failure → Prop
  | done : Delivered [] [] none
  | taken (chunk : List UInt8) (count : Nat) {chunks : List (List UInt8)} {calls : List Delivery}
      {outcome : Option Failure} (others : Delivered chunks calls outcome) :
      Delivered (chunk :: chunks) (⟨chunk, count, none⟩ :: calls) outcome
  | refused (chunk : List UInt8) (count : Nat) (f : Failure) (chunks : List (List UInt8)) :
      Delivered (chunk :: chunks) [⟨chunk, count, some f⟩] (some (f.within .writeFailed))

/-- Chunks are sent in order, one call each, and there is no call behind one that fails. Nothing is
reported exactly when all calls were made and succeeded, and a failure exactly when it is that of
the last call. -/
structure SentUntilFailure (chunks : List (List UInt8)) (calls : List Delivery)
    (outcome : Option Failure) : Prop where
  in_order : calls.map Delivery.chunk <+: chunks
  stops : ∀ call ∈ calls.dropLast, call.taken.failure = none
  succeeds_iff : outcome = none ↔
    calls.map Delivery.chunk = chunks ∧ ∀ call ∈ calls, call.taken.failure = none
  fails_iff : ∀ g, outcome = some g ↔ ∃ call f, calls.getLast? = some call ∧
    call.taken.failure = some f ∧ g = f.within .writeFailed ∧
      g.message = "write failed: " ++ f.message

private theorem Failure.message_writeFailed (f : Failure) :
    (f.within .writeFailed).message = "write failed: " ++ f.message := by
  have front : Circumstance.writeFailed.text ++ ": " = "write failed: " := by decide
  rw [← front, message, within, List.map_cons, List.cons_append,
    String.intercalate_cons_of_ne_nil (by simp)]
  rfl

namespace Delivered

variable {chunks : List (List UInt8)} {calls : List Delivery} {outcome : Option Failure}

private theorem in_order (delivered : Delivered chunks calls outcome) :
    calls.map Delivery.chunk <+: chunks := by
  induction delivered with
  | done => exact List.nil_prefix
  | taken _ _ _ ih => exact (List.prefix_cons_inj _).mpr ih
  | refused _ _ _ chunks => exact List.prefix_append _ chunks

theorem stops (delivered : Delivered chunks calls outcome) :
    ∀ call ∈ calls.dropLast, call.taken.failure = none := by
  induction delivered with
  | done => exact nofun
  | @taken _ _ _ calls _ _ ih =>
    cases calls with
    | nil => exact nofun
    | cons second calls => exact List.forall_mem_cons.mpr ⟨rfl, ih⟩
  | refused => exact nofun

/-- The outcome is the failure of the last call. -/
theorem outcome_eq (delivered : Delivered chunks calls outcome) :
    outcome = (calls.getLast?.bind (·.taken.failure)).map (·.within .writeFailed) := by
  induction delivered with
  | done => rfl
  | @taken _ _ _ calls _ _ ih =>
    cases calls with
    | nil => exact ih
    | cons second calls => rwa [List.getLast?_cons_cons]
  | refused => rfl

/-- Without a failure all chunks are sent. -/
theorem complete (delivered : Delivered chunks calls outcome) (success : outcome = none) :
    calls.map Delivery.chunk = chunks ∧ ∀ call ∈ calls, call.taken.failure = none := by
  induction delivered with
  | done => exact ⟨rfl, nofun⟩
  | taken _ _ _ ih =>
    obtain ⟨sent, succeeded⟩ := ih success
    exact ⟨congrArg _ sent, List.forall_mem_cons.mpr ⟨rfl, succeeded⟩⟩
  | refused => cases success

private theorem sentUntilFailure (delivered : Delivered chunks calls outcome) :
    SentUntilFailure chunks calls outcome where
  in_order := delivered.in_order
  stops := delivered.stops
  succeeds_iff := by
    refine ⟨delivered.complete, ?_⟩
    rintro ⟨-, succeeded⟩
    rw [delivered.outcome_eq]
    cases last : calls.getLast? with
    | none => rfl
    | some call => simp [succeeded call (List.mem_of_getLast? last)]
  fails_iff g := by
    simp only [delivered.outcome_eq, Option.map_eq_some_iff, Option.bind_eq_some_iff]
    constructor
    · rintro ⟨f, ⟨call, last, failed⟩, rfl⟩
      exact ⟨call, f, last, failed, rfl, f.message_writeFailed⟩
    · rintro ⟨call, f, last, failed, rfl, -⟩
      exact ⟨f, ⟨call, last, failed⟩, rfl⟩

end Delivered

namespace Sticky

variable {sink : Sink σ} {w : Sticky σ} {f : Failure}

/-! ## The failure is kept -/

theorem write_of_failed (failed : w.failure = some f) (chunk : List UInt8) :
    w.write sink chunk = (⟨0, some f⟩, w) := by
  rw [write, failed]

private theorem writeAll_of_failed (failed : w.failure = some f) (chunks : List (List UInt8)) :
    w.writeAll sink chunks = (some f, w) := by
  cases chunks with
  | nil => rw [writeAll, failed]
  | cons chunk chunks => rw [writeAll, write_of_failed failed]

/-- A call answers with the failure that the writer keeps. -/
theorem failure_write (sink : Sink σ) (chunk : List UInt8) (w : Sticky σ) :
    (w.write sink chunk).1.failure = (w.write sink chunk).2.failure := by
  unfold write
  split
  · next failed => exact failed.symm
  · split <;> rfl

private theorem writeAll_fst (sink : Sink σ) (chunks : List (List UInt8)) (w : Sticky σ) :
    (w.writeAll sink chunks).1 = (w.writeAll sink chunks).2.failure := by
  induction chunks generalizing w with
  | nil => rfl
  | cons chunk chunks ih =>
    have kept := failure_write sink chunk w
    rw [writeAll]
    split
    · next failed => simpa [failed] using kept
    · exact ih _

/-- Chunks may be written in two goes without a look at the outcome of the first. -/
theorem writeAll_append (sink : Sink σ) (chunks more : List (List UInt8)) (w : Sticky σ) :
    w.writeAll sink (chunks ++ more) = (w.writeAll sink chunks).2.writeAll sink more := by
  induction chunks generalizing w with
  | nil => rfl
  | cons chunk chunks ih =>
    have kept := failure_write sink chunk w
    rw [List.cons_append, writeAll, writeAll]
    split
    · next written =>
      -- The second go finds the failure that the first one left in the writer.
      rw [written] at kept
      exact (writeAll_of_failed kept.symm more).symm
    · exact ih _

private theorem writeAll_singleton (sink : Sink σ) (chunk : List UInt8) (w : Sticky σ) :
    w.writeAll sink [chunk] = ((w.write sink chunk).1.failure, (w.write sink chunk).2) := by
  have kept := failure_write sink chunk w
  rw [writeAll]
  split
  · next written => rw [written]
  · next written =>
    rw [written] at kept ⊢
    exact congrArg (·, _) kept.symm

/-! ## The log of the sink -/

def unlogged (w : Sticky (σ × List Delivery)) : Sticky σ :=
  ⟨w.device.1, w.failure⟩

/-- The log changes neither the answer nor the device. -/
theorem write_logged (sink : Sink σ) (chunk : List UInt8) (w : Sticky (σ × List Delivery)) :
    Prod.map id unlogged (w.write sink.logged chunk) = w.unlogged.write sink chunk := by
  obtain ⟨⟨device, log⟩, failure⟩ := w
  cases failure with
  | some f => rfl
  | none =>
    rcases result : sink chunk device with ⟨⟨count, outcome⟩, after⟩
    cases outcome <;> simp [write, unlogged, Sink.logged, result]

private theorem writeAll_logged (sink : Sink σ) (chunks : List (List UInt8))
    (w : Sticky (σ × List Delivery)) :
    Prod.map id unlogged (w.writeAll sink.logged chunks) = w.unlogged.writeAll sink chunks := by
  induction chunks generalizing w with
  | nil => rfl
  | cons chunk chunks ih =>
    have same := write_logged sink chunk w
    rcases written : w.write sink.logged chunk with ⟨⟨count, outcome⟩, after⟩
    rw [written] at same
    rw [writeAll, writeAll, written, ← same]
    cases outcome with
    | some f => rfl
    | none => exact ih after

/-- What a writer that has not failed delivers. -/
theorem delivered_writeAll (sink : Sink σ) (chunks : List (List UInt8)) (device : σ)
    (log : List Delivery) : ∃ after calls outcome,
      writeAll sink.logged chunks ⟨(device, log), none⟩ =
        (outcome, ⟨(after, log ++ calls), outcome⟩) ∧ Delivered chunks calls outcome := by
  -- The log is that of the calls before, to which each chunk in turn adds its own.
  induction chunks generalizing device log with
  | nil => exact ⟨device, [], none, by simp [writeAll], .done⟩
  | cons chunk chunks ih =>
    rcases result : sink chunk device with ⟨⟨count, outcome⟩, after⟩
    cases outcome with
    | some f =>
      refine ⟨after, _, _, ?_, .refused chunk count f chunks⟩
      simp [writeAll, write, Sink.logged, result]
    | none =>
      obtain ⟨last, calls, outcome, written, delivered⟩ := ih after (log ++ [⟨chunk, count, none⟩])
      refine ⟨last, _, outcome, ?_, .taken chunk count delivered⟩
      simp [writeAll, write, Sink.logged, result, written]

end Sticky

/-! ## The bytes of a dump -/

def utf8 (text : String) : List UInt8 :=
  text.toUTF8.data.toList

private theorem ofCell_eq (c : Cell) : Decimal.ofCell c = (toString c.toInt).toList := by
  unfold Decimal.ofCell Decimal.ofInt
  cases c.toInt with
  | ofNat n =>
    rw [if_neg (by simp)]
    exact String.toList_ofList.symm
  | negSucc n =>
    rw [if_pos (Int.negSucc_lt_zero n), Int.natAbs_negSucc]
    change _ = ("-" ++ Nat.repr (n + 1)).toList
    rw [String.toList_append, Nat.repr, String.toList_ofList, String.toList_ofList]
    rfl

private theorem encode_ofCell (c : Cell) :
    Utf8.encode (Decimal.ofCell c) = utf8 (toString c.toInt) := by
  rw [ofCell_eq, Utf8.encode_toList, utf8]

/-- A row of cells in chunks, one for each cell, with a separator in front of all but the first. -/
def Sticky.rowChunks (separator : List UInt8) (row : List Cell) : List (List UInt8) :=
  row.mapIdx fun i cell => (if i = 0 then [] else separator) ++ utf8 (toString cell.toInt)

private theorem Sticky.cellChunks_eq_rowChunks (separator : List UInt8) (row : List Cell) :
    cellChunks separator row = rowChunks separator row := by
  cases row with
  | nil => rfl
  | cons cell row =>
    rw [rowChunks, List.mapIdx_cons, cellChunks, encode_ofCell]
    congr 1
    refine (List.mapIdx_eq_iff.mpr ?_).symm
    intro i
    simp [encode_ofCell]

private theorem Machine.pcLine_eq (m : Machine) :
    m.pcLine = utf8 ("pc: " ++ toString m.pc.toInt ++ "\n") := by
  rw [utf8, ← Utf8.encode_toList, String.toList_append, String.toList_append, ← ofCell_eq]
  rfl

namespace Memory

/-- The chunks of a dump: the cells, and a new line. -/
def dumpChunks (m : Memory) : List (List UInt8) :=
  Sticky.rowChunks (utf8 ",") m.toList ++ [utf8 "\n"]

/-- A dump writes all of its chunks, although it looks at the outcome of the last one only. -/
theorem dump_eq_writeAll (sink : Sink σ) (m : Memory) (w : Sticky σ) :
    m.dump sink w = w.writeAll sink m.dumpChunks := by
  rw [dumpChunks, Sticky.writeAll_append, Sticky.writeAll_singleton,
    ← Sticky.cellChunks_eq_rowChunks]
  rfl

private theorem delivered_dumpTo (sink : Sink σ) (m : Memory) (device : σ) (log : List Delivery) :
    ∃ after calls outcome, m.dumpTo sink.logged (device, log) = (outcome, after, log ++ calls) ∧
      m.dumpTo sink device = (outcome, after) ∧ Delivered m.dumpChunks calls outcome := by
  obtain ⟨after, calls, outcome, written, delivered⟩ :=
    Sticky.delivered_writeAll sink m.dumpChunks device log
  have plain := Sticky.writeAll_logged sink m.dumpChunks ⟨(device, log), none⟩
  rw [written] at plain
  refine ⟨after, calls, outcome, ?_, ?_, delivered⟩
  · rw [dumpTo, dump_eq_writeAll, Outlet.guarded, written]
  · rw [dumpTo, dump_eq_writeAll, Outlet.guarded]
    exact congrArg (fun answer => (answer.1, answer.2.device)) plain.symm

end Memory

/-- The program counter is delivered in front of the memory, and not through the sticky writer. -/
theorem Machine.delivered_dumpTo (sink : Sink σ) (m : Machine) (device : σ) :
    ∃ after first calls outcome,
      m.dumpTo sink.logged (device, []) = (outcome, after, first :: calls) ∧
      m.dumpTo sink device = (outcome, after) ∧
      first.chunk = utf8 ("pc: " ++ toString m.pc.toInt ++ "\n") ∧
      match first.taken.failure with
      | some f => calls = [] ∧ outcome = some f
      | none => Delivered m.memory.dumpChunks calls outcome := by
  rcases result : sink m.pcLine device with ⟨⟨count, outcome⟩, middle⟩
  cases outcome with
  | some f =>
    refine ⟨middle, ⟨m.pcLine, count, some f⟩, [], some f, ?_, ?_, m.pcLine_eq, rfl, rfl⟩
    · simp [dumpTo, Sink.logged, result]
    · simp [dumpTo, result]
  | none =>
    obtain ⟨after, calls, outcome, logged, plain, delivered⟩ :=
      m.memory.delivered_dumpTo sink middle [⟨m.pcLine, count, none⟩]
    refine ⟨after, ⟨m.pcLine, count, none⟩, calls, outcome, ?_, ?_, m.pcLine_eq, delivered⟩
    · simpa [dumpTo, Sink.logged, result] using logged
    · simpa [dumpTo, result] using plain

namespace Sticky

/-! ## Several jobs through one writer -/

inductive Job where
  | cells (separator : List UInt8) (row : List Cell)
  | dump (memory : Memory)

def Job.perform (sink : Sink σ) (w : Sticky σ) : Job → Option Failure × Sticky σ
  | .cells separator row => w.writeCells sink separator row
  | .dump memory => memory.dump sink (Outlet.sticky w).guarded

def session (sink : Sink σ) : List Job → Sticky σ → List (Option Failure × Sticky σ)
  | [], _ => []
  | job :: jobs, w => job.perform sink w :: session sink jobs (job.perform sink w).2

def Job.chunks : Job → List (List UInt8)
  | .cells separator row => rowChunks separator row
  | .dump memory => memory.dumpChunks

private theorem Job.perform_eq_writeAll (sink : Sink σ) (w : Sticky σ) (job : Job) :
    job.perform sink w = w.writeAll sink job.chunks := by
  cases job with
  | cells separator row => rw [chunks, ← cellChunks_eq_rowChunks, perform, writeCells]
  | dump memory => exact memory.dump_eq_writeAll sink w

private theorem session_of_failed {sink : Sink σ} {w : Sticky σ} {f : Failure}
    (failed : w.failure = some f) (jobs : List Job) :
    ∀ answer ∈ session sink jobs w, answer = (some f, w) := by
  induction jobs with
  | nil => exact List.forall_mem_nil _
  | cons job jobs ih =>
    have answer : job.perform sink w = (some f, w) := by
      rw [job.perform_eq_writeAll, writeAll_of_failed failed]
    rw [session, answer]
    exact List.forall_mem_cons.mpr ⟨rfl, ih⟩

/-- An answer that is a failure stays the answer, and the writer stays as it is. -/
theorem pairwise_session (sink : Sink σ) (jobs : List Job) (w : Sticky σ) :
    (session sink jobs w).Pairwise fun earlier later =>
      ∀ f, earlier.1 = some f → later = earlier := by
  induction jobs generalizing w with
  | nil => exact .nil
  | cons job jobs ih =>
    refine .cons ?_ (ih _)
    intro later member f answer
    have failed : (job.perform sink w).2.failure = some f := by
      rw [← answer, job.perform_eq_writeAll, writeAll_fst]
    rw [session_of_failed failed jobs later member, ← answer]

private theorem session_logged (sink : Sink σ) (jobs : List Job) (w : Sticky (σ × List Delivery)) :
    (session sink.logged jobs w).map (Prod.map id unlogged) = session sink jobs w.unlogged := by
  induction jobs generalizing w with
  | nil => rfl
  | cons job jobs ih =>
    have same : Prod.map id unlogged (job.perform sink.logged w) = job.perform sink w.unlogged := by
      rw [job.perform_eq_writeAll, job.perform_eq_writeAll, writeAll_logged]
    rw [session, List.map_cons, ih, session, ← same]
    rfl

end Sticky

/-- A dump is sent until a call fails, and reports that failure. So is every job through a sticky
writer that has not failed; behind a job that fails all jobs fail alike and nothing more is sent.
The dump of a machine sends the program counter first, whose failure is reported as it is. -/
theorem dump_stops_at_failure (sink : Sink σ) :
    (∀ (m : Memory) (device : σ), ∃ after calls outcome,
      m.dumpTo sink.logged (device, []) = (outcome, after, calls) ∧
      m.dumpTo sink device = (outcome, after) ∧ SentUntilFailure m.dumpChunks calls outcome) ∧
    (∀ (job : Sticky.Job) (device : σ) (log : List Delivery), ∃ after calls outcome,
      job.perform sink.logged ⟨(device, log), none⟩ =
        (outcome, ⟨(after, log ++ calls), outcome⟩) ∧
      SentUntilFailure job.chunks calls outcome) ∧
    (∀ (jobs : List Sticky.Job) (w : Sticky (σ × List Delivery)),
      ((Sticky.session sink.logged jobs w).map (Prod.map id Sticky.unlogged) =
        Sticky.session sink jobs w.unlogged) ∧
      (Sticky.session sink.logged jobs w).Pairwise fun earlier later =>
        ∀ f, earlier.1 = some f → later = earlier) ∧
    ∀ (m : Machine) (device : σ), ∃ after first calls outcome,
      m.dumpTo sink.logged (device, []) = (outcome, after, first :: calls) ∧
      m.dumpTo sink device = (outcome, after) ∧
      first.chunk = utf8 ("pc: " ++ toString m.pc.toInt ++ "\n") ∧
      match first.taken.failure with
      | some f => calls = [] ∧ outcome = some f
      | none => SentUntilFailure m.memory.dumpChunks calls outcome := by
  refine ⟨?_, ?_, ?_, ?_⟩
  · intro m device
    obtain ⟨after, calls, outcome, logged, plain, delivered⟩ := m.delivered_dumpTo sink device []
    exact ⟨after, calls, outcome, logged, plain, delivered.sentUntilFailure⟩
  · intro job device log
    obtain ⟨after, calls, outcome, written, delivered⟩ :=
      Sticky.delivered_writeAll sink job.chunks device log
    rw [job.perform_eq_writeAll]
    exact ⟨after, calls, outcome, written, delivered.sentUntilFailure⟩
  · intro jobs w
    exact ⟨Sticky.session_logged sink jobs w, Sticky.pairwise_session sink.logged jobs w⟩
  · intro m device
    obtain ⟨after, first, calls, outcome, logged, plain, line, behind⟩ :=
      m.delivered_dumpTo sink device
    refine ⟨after, first, calls, outcome, logged, plain, line, ?_⟩
    split at behind
    · exact behind
    · exact behind.sentUntilFailure

/-- A recorder that takes one byte of its second call, dumped to alone and behind a writer that is
used again, and one that refuses its first call, dumped to by a machine. -/
theorem dump_stops_at_failure_refused :
    let full : Failure := ⟨.device "disk full", []⟩
    let r : Recorder := { refuse := some 1, short := 1 }
    let m := Memory.ofList [1, 2, 3]
    let jobs : List Sticky.Job := [.dump m, .cells [32] [], .dump m]
    let machine : Machine := { memory := m, pc := 7 }
    (∃ after calls, m.dumpTo Recorder.write.logged (r, []) =
        (some (full.within .writeFailed), after, calls) ∧
      SentUntilFailure m.dumpChunks calls (some (full.within .writeFailed)) ∧
      calls = [⟨[49], ⟨1, none⟩⟩, ⟨[44, 50], ⟨1, some full⟩⟩]) ∧
    (∃ answer : Option Failure × Sticky (Recorder × List Delivery),
      Sticky.session Recorder.write.logged jobs ⟨(r, []), none⟩ = [answer, answer, answer] ∧
      answer.1 = some (full.within .writeFailed)) ∧
    ∃ after, machine.dumpTo Recorder.write.logged ({ refuse := some 0 }, []) =
      (some full, after, [⟨[112, 99, 58, 32, 55, 10], ⟨0, some full⟩⟩]) := by
  intro full r m jobs machine
  obtain ⟨dumps, -, sessions, machines⟩ := dump_stops_at_failure Recorder.write
  refine ⟨?_, ?_, ?_⟩
  · obtain ⟨after, calls, outcome, logged, -, sent⟩ := dumps m r
    have run : (m.dumpTo Recorder.write.logged (r, [])).1 = some (full.within .writeFailed) ∧
        (m.dumpTo Recorder.write.logged (r, [])).2.2 =
          [⟨[49], ⟨1, none⟩⟩, ⟨[44, 50], ⟨1, some full⟩⟩] := by decide
    rw [logged] at run
    obtain ⟨rfl, rfl⟩ := run
    exact ⟨after, _, logged, sent, rfl⟩
  · obtain ⟨-, alike⟩ := sessions jobs ⟨(r, []), none⟩
    obtain ⟨answer, second, third, history⟩ : ∃ answer second third,
        Sticky.session Recorder.write.logged jobs ⟨(r, []), none⟩ = [answer, second, third] :=
      ⟨_, _, _, rfl⟩
    have failed : ((Sticky.session Recorder.write.logged jobs ⟨(r, []), none⟩).map Prod.fst).head? =
        some (some (full.within .writeFailed)) := by decide
    rw [history] at alike failed
    have first : answer.1 = some (full.within .writeFailed) := Option.some.inj failed
    obtain ⟨later, -⟩ := List.pairwise_cons.mp alike
    rw [later second (by simp) _ first, later third (by simp) _ first] at history
    exact ⟨answer, history, first⟩
  · obtain ⟨after, call, calls, outcome, logged, -, line, behind⟩ :=
      machines machine { refuse := some 0 }
    have run : (machine.dumpTo Recorder.write.logged ({ refuse := some 0 }, [])).2.2.head?.map
        Delivery.taken = some ⟨0, some full⟩ := by decide
    rw [logged] at run
    obtain ⟨chunk, taken⟩ := call
    obtain rfl : taken = ⟨0, some full⟩ := Option.some.inj run
    obtain ⟨rfl, rfl⟩ := behind
    obtain rfl : chunk = [112, 99, 58, 32, 55, 10] := line.trans (by decide)
    exact ⟨after, logged⟩

end CellMachine
