import RiscvRs.Exec.Panics
import RiscvRs.Lib.Trace
import RiscvRs.Memory.Bulk

/-! The standard streams of the guest: what `SYS_write` hands to the host, and what a
sequence of `SYS_read` calls takes from the native host's input. -/

namespace RiscvRs

open Effects Prog Bytes

section Calls

variable {env : Env} {m : Machine}

/-- A call that no hook answers. -/
theorem handleEcall_builtin (off : m.cpu.hasCustomSyscalls = false) :
    (handleEcall env).run m = (builtinSyscall env (m.cpu.readReg regA0) (m.cpu.readReg regA1)
      (m.cpu.readReg regA2)
      (m.cpu.readReg regA3) (m.cpu.readReg regA7)).run m := by
  rw [handleEcall, run_bind, run_getCpu, Outcome.andThen_ok]
  dsimp only
  rw [off]
  rfl

/-- The guest asks for `SYS_write`. -/
def Machine.RequestsWrite (m : Machine) : Prop :=
  m.cpu.hasCustomSyscalls = false ∧ (m.cpu.readReg regA7 = 64 ∨ m.cpu.readReg regA7 = 4) ∧
    (m.cpu.readReg regA0 = 1 ∨ m.cpu.readReg regA0 = 2)

/-- The guest asks for `SYS_read`. -/
def Machine.RequestsRead (m : Machine) : Prop :=
  m.cpu.hasCustomSyscalls = false ∧ (m.cpu.readReg regA7 = 63 ∨ m.cpu.readReg regA7 = 3)

theorem handleEcall_write (request : m.RequestsWrite) : (handleEcall env).run m =
    (sysWrite env (m.cpu.readReg regA0) (m.cpu.readReg regA1) (m.cpu.readReg regA2)).run m := by
  obtain ⟨off, number, -⟩ := request
  rw [handleEcall_builtin off, builtinSyscall, if_neg, if_pos number]
  rcases number with same | same <;> rw [same] <;> decide

theorem handleEcall_read (request : m.RequestsRead) : (handleEcall env).run m =
    (sysRead env (m.cpu.readReg regA1) (m.cpu.readReg regA2)).run m := by
  obtain ⟨off, number⟩ := request
  rw [handleEcall_builtin off, builtinSyscall, if_neg, if_neg, if_pos number]
  · rcases number with same | same <;> rw [same] <;> decide
  · rcases number with same | same <;> rw [same] <;> decide

end Calls

section Writing

def IoEvent.isStreamWrite : IoEvent → Bool
  | writeStdout _ | writeStderr _ => true
  | _ => false

/-- What the guest wrote to its streams so far, newest first. -/
def Machine.streamWrites (m : Machine) : List IoEvent := m.bus.world.io.filter IoEvent.isStreamWrite

/-- The write that a descriptor stands for. -/
def streamWrite (fd : U32) (bytes : List U8) : IoEvent :=
  if fd = 1 then .writeStdout bytes else .writeStderr bytes

variable {env : Env} {m : Machine}

/-- One host write with the guest's bytes, and their number as the answer. -/
structure Delivers (env : Env) (m m' : Machine) (bytes : List U8) : Prop where
  once : m'.streamWrites = streamWrite (m.cpu.readReg regA0) bytes :: m.streamWrites
  guest : ∃ bus, (MemoryOps.readBytes (Memory.readU8 env.host) (m.cpu.readReg regA1) bytes.length :
      Prog Bus CpuError _).run m.bus = .ok bytes bus ∧
        m'.bus = bus.record (streamWrite (m.cpu.readReg regA0) bytes)
  answer : (m'.cpu.readReg regA0).toNat = bytes.length

/-- Reading the guest's bytes adds no stream write. -/
theorem streamWrites_readEach {bus bus' : Bus} {addr : U32} {count : Nat} {bytes : List U8}
    (run : (Memory.readEach env.host addr count : Prog Bus CpuError _).run bus = .ok bytes bus') :
    bus'.world.io.filter IoEvent.isStreamWrite = bus.world.io.filter IoEvent.isStreamWrite := by
  refine (steady_readEach
    (F := Frame.of fun b : Bus => b.world.io.filter IoEvent.isStreamWrite) env.host ?_
    addr count).ok run
  intro bus addr size val
  rfl

theorem sysWrite_run (env : Env) (m : Machine) {fd : U32} (a1 a2 : U32) (stream : fd = 1 ∨ fd = 2) :
    ∃ bytes bus, (Memory.readEach env.host a1 (transferCount a2) : Prog Bus CpuError _).run m.bus =
      .ok bytes bus ∧
      bytes.length = transferCount a2 ∧
      (sysWrite env fd a1 a2).run m = .ok ()
        ⟨m.cpu.writeReg regA0 a2, bus.record (streamWrite fd bytes)⟩ := by
  obtain ⟨bytes, bus, read, size⟩ :=
    readEach_ok (ε := CpuError) env.host m.bus a1 (transferCount a2)
  have bulk := run_onBus ((readBytes_each env.host m.bus a1 (transferCount a2)).trans read)
  refine ⟨bytes, bus, read, size, ?_⟩
  rw [sysWrite, run_bind, bulk, Outcome.andThen_ok]
  rcases stream with rfl | rfl <;> rfl

/-- What is delivered, whatever the count: one write of at most 16 MiB. The answer is the count. -/
theorem handleEcall_delivered (env : Env) (request : m.RequestsWrite) :
    ∃ m' bytes, (handleEcall env).run m = .ok () m' ∧
      bytes.length = transferCount (m.cpu.readReg regA2) ∧
      m'.streamWrites = streamWrite (m.cpu.readReg regA0) bytes :: m.streamWrites ∧
      (∃ bus, (MemoryOps.readBytes (Memory.readU8 env.host) (m.cpu.readReg regA1) bytes.length :
          Prog Bus CpuError _).run m.bus = .ok bytes bus ∧
        m'.bus = bus.record (streamWrite (m.cpu.readReg regA0) bytes)) ∧
      m'.cpu.readReg regA0 = m.cpu.readReg regA2 := by
  obtain ⟨bytes, bus, read, size, run⟩ :=
    sysWrite_run env m (m.cpu.readReg regA1) (m.cpu.readReg regA2)
    request.2.2
  refine ⟨_, bytes, (handleEcall_write request).trans run, size, ?_, ⟨bus, ?_, rfl⟩, rfl⟩
  · have told : (streamWrite (m.cpu.readReg regA0) bytes).isStreamWrite = true := by
      unfold streamWrite
      split <;> rfl
    change List.filter _ (_ :: bus.world.io) = _
    rw [List.filter_cons_of_pos told, streamWrites_readEach read]
    rfl
  · rw [readBytes_default, size]
    exact read

/-- `SYS_write` answers with the number of bytes it delivered exactly when the count is at
most 16 MiB: a larger count is cut, but answered in full. -/
theorem sys_write_reports_delivered_iff (env : Env) (m : Machine) (request : m.RequestsWrite) :
    (∃ m' bytes, (handleEcall env).run m = .ok () m' ∧ Delivers env m m' bytes) ↔
      (m.cpu.readReg regA2).toNat ≤ 16 * 1024 * 1024 := by
  obtain ⟨m', bytes, run, size, once, guest, answer⟩ := handleEcall_delivered env request
  constructor
  · rintro ⟨m'', bytes', again, delivers⟩
    obtain ⟨-, rfl⟩ := Outcome.ok.inj (again.symm.trans run)
    have same : bytes' = bytes := by
      have events := List.cons.inj (delivers.once.symm.trans once)
      unfold streamWrite at events
      split at events
      · exact IoEvent.writeStdout.inj events.1
      · exact IoEvent.writeStderr.inj events.1
    have told := delivers.answer
    rw [answer, same, size, transferCount] at told
    omega
  · intro small
    refine ⟨m', bytes, run, once, guest, ?_⟩
    rw [answer, size, transferCount]
    omega

/-- A machine about to write `count` bytes from address zero to its standard output. -/
def Machine.writing (count : U32) : Machine :=
  { Machine.new with cpu := ((Cpu.new.writeReg regA7 64).writeReg regA0 1).writeReg regA2 count }

/-- A short write. -/
theorem sys_write_reports_delivered_iff_short :
    ∃ m' bytes, (handleEcall default).run (.writing 3) = .ok () m' ∧
      Delivers default (.writing 3) m' bytes :=
  (sys_write_reports_delivered_iff default (.writing 3) ⟨rfl, .inl rfl, .inl rfl⟩).mpr (by decide)

/-- One byte more than 16 MiB: the host gets 16777216 bytes and the guest is told 16777217. -/
theorem sys_write_overreports :
    ∃ m' bytes, (Machine.writing 16777217).RequestsWrite ∧
      (handleEcall default).run (.writing 16777217) = .ok () m' ∧
      m'.streamWrites = [.writeStdout bytes] ∧ bytes.length = 16777216 ∧
      m'.cpu.readReg regA0 = 16777217 ∧
        ∀ others, ¬Delivers default (.writing 16777217) m' others := by
  have request : (Machine.writing 16777217).RequestsWrite := ⟨rfl, .inl rfl, .inl rfl⟩
  obtain ⟨m', bytes, run, size, once, -, answer⟩ := handleEcall_delivered default request
  have length : bytes.length = 16777216 := size
  refine ⟨m', bytes, request, run, once, length, answer, ?_⟩
  intro others delivers
  have same : others = bytes :=
    IoEvent.writeStdout.inj (List.cons.inj (delivers.once.symm.trans once)).1
  have told := delivers.answer
  rw [answer, same, length] at told
  exact absurd told (by decide)

end Writing

section Reading

/-- A call of the native `read_from_stdin`: its result, what it copied and what it left. -/
structure StdinRead where
  bytesRead : U32
  copied : List U8
  left : List U8

/-- The native `read_from_stdin`: drain the front of the buffer. -/
def readFromMockStdin (stdin : List U8) (count : U32) : StdinRead :=
  if count = 0 then ⟨0, [], stdin⟩
  else
    let toRead := min (stdin.length % 2 ^ 32) count.toNat
    if toRead > 0 then ⟨BitVec.ofNat 32 toRead, stdin.take toRead,
      stdin.drop toRead⟩ else ⟨0, [], stdin⟩

/-- The buffer after the calls in a log, newest first. -/
def mockStdin (stdin : List U8) : List IoEvent → List U8
  | [] => stdin
  | .readFromStdin count _ :: earlier => (readFromMockStdin (mockStdin stdin earlier) count).left
  | _ :: earlier => mockStdin stdin earlier

/-- The native host's answers, for the input it started with. -/
def nativeStdin (stdin : List U8) (io : List IoEvent) (count : U32) : U32 × List U8 :=
  let call := readFromMockStdin (mockStdin stdin io) count
  (call.bytesRead, call.copied)

/-- Without the casts, a call takes as much as there is, up to the count. -/
theorem readFromMockStdin_eq {stdin : List U8} (short : stdin.length < 2 ^ 32) (count : U32) :
    readFromMockStdin stdin count =
      ⟨BitVec.ofNat 32 (min stdin.length count.toNat), stdin.take (min stdin.length count.toNat),
        stdin.drop (min stdin.length count.toNat)⟩ := by
  unfold readFromMockStdin
  rw [Nat.mod_eq_of_lt short]
  split
  · next zero => simp [zero]
  · dsimp only
    split
    · rfl
    · next none =>
      have empty : min stdin.length count.toNat = 0 := by omega
      simp [empty]

theorem length_mockStdin_le (stdin : List U8) (io : List IoEvent) :
    (mockStdin stdin io).length ≤ stdin.length := by
  induction io with
  | nil => exact le_rfl
  | cons event earlier ih =>
    cases event with
    | readFromStdin count bytesRead =>
      refine le_trans ?_ ih
      rw [mockStdin]
      unfold readFromMockStdin
      split
      · exact le_rfl
      · dsimp only
        split
        · exact (List.length_drop).le.trans (Nat.sub_le _ _)
        · exact le_rfl
    | _ => exact ih

variable {env : Env} {stdin : List U8} {m : Machine}

/-- What is left of the input. -/
def Machine.stdinLeft (m : Machine) (stdin : List U8) : List U8 := mockStdin stdin m.bus.world.io

/-- How many bytes a `SYS_read` gets. -/
def Machine.readCount (m : Machine) (stdin : List U8) : Nat :=
  min (m.stdinLeft stdin).length (min (m.cpu.readReg regA2).toNat (16 * 1024 * 1024))

/-- One `SYS_read` took the next bytes of the input to its buffer and did nothing else. -/
structure ReadsNext (stdin : List U8) (m m' : Machine) : Prop where
  cpu : m'.cpu = m.cpu.writeReg regA0 (BitVec.ofNat 32 (m.readCount stdin))
  answer : (m'.cpu.readReg regA0).toNat = m.readCount stdin
  bytes : span m'.bus.mem.flat (m.cpu.readReg regA1) (m.readCount stdin) =
    (m.stdinLeft stdin).take (m.readCount stdin)
  outside : ∀ x, m.readCount stdin ≤ (x - m.cpu.readReg regA1).toNat →
    m'.bus.mem.flat x = m.bus.mem.flat x
  brk : m'.bus.mem.brkPtr = m.bus.mem.brkPtr ∧ m'.bus.mem.initialBrk = m.bus.mem.initialBrk
  left : m'.stdinLeft stdin = (m.stdinLeft stdin).drop (m.readCount stdin)

theorem readCount_le (m : Machine) (stdin : List U8) :
    m.readCount stdin ≤ (m.stdinLeft stdin).length ∧
    m.readCount stdin ≤ transferCount (m.cpu.readReg regA2) ∧
      m.readCount stdin ≤ 16 * 1024 * 1024 := by
  unfold Machine.readCount transferCount
  omega

/-- What the native host answers to the call of `SYS_read`. -/
theorem nativeStdin_eq (short : stdin.length < 2 ^ 32) :
    nativeStdin stdin m.bus.world.io (BitVec.ofNat 32 (transferCount (m.cpu.readReg regA2))) =
      (BitVec.ofNat 32 (m.readCount stdin), (m.stdinLeft stdin).take (m.readCount stdin)) := by
  have shorter := (length_mockStdin_le stdin m.bus.world.io).trans_lt short
  have count : (BitVec.ofNat 32 (transferCount (m.cpu.readReg regA2))).toNat = transferCount
    (m.cpu.readReg regA2) :=
    Nat.mod_eq_of_lt (transferCount_lt _)
  rw [nativeStdin, readFromMockStdin_eq shorter, count]
  rfl

/-- A positive answer of at most 16 MiB is positive as an `i32` too. -/
theorem toInt_answer_pos {n : Nat} (small : n ≤ 16 * 1024 * 1024) :
    (BitVec.ofNat 32 n).toInt > 0 ↔ 0 < n := by
  have value : (BitVec.ofNat 32 n).toNat = n := Nat.mod_eq_of_lt (by omega)
  rw [BitVec.toInt_eq_toNat_of_lt (by omega), value]
  omega

/-- The bus after the host was asked for input. -/
def Machine.asked (m : Machine) (stdin : List U8) : Bus :=
  m.bus.record (.readFromStdin (BitVec.ofNat 32 (transferCount (m.cpu.readReg regA2)))
    (BitVec.ofNat 32 (m.readCount stdin)))

/-- Being asked drains the input, whatever happens to memory and registers. -/
theorem stdinLeft_asked (short : stdin.length < 2 ^ 32) (mem : Memory) (cpu : Cpu) :
    Machine.stdinLeft ⟨cpu, { m.asked stdin with mem := mem }⟩ stdin = (m.stdinLeft stdin).drop
      (m.readCount stdin) := by
  have shorter := (length_mockStdin_le stdin m.bus.world.io).trans_lt short
  have count : (BitVec.ofNat 32 (transferCount (m.cpu.readReg regA2))).toNat = transferCount
    (m.cpu.readReg regA2) :=
    Nat.mod_eq_of_lt (transferCount_lt _)
  change (readFromMockStdin (mockStdin stdin m.bus.world.io) _).left = _
  rw [readFromMockStdin_eq shorter, count]
  rfl

/-- `SYS_read` on the native host, without the scratch buffer. -/
theorem sysRead_native (short : stdin.length < 2 ^ 32)
    (native : env.host.readFromStdin = nativeStdin stdin) (a1 : U32) :
    (sysRead env a1 (m.cpu.readReg regA2)).run m =
      (if 0 < m.readCount stdin then do
        onBus (Memory.writeBytes a1 ((m.stdinLeft stdin).take (m.readCount stdin)))
        modifyCpu (·.writeReg regA0 (BitVec.ofNat 32 (m.readCount stdin)))
      else modifyCpu (·.writeReg regA0 0) : Exec Unit).run { m with bus := m.asked stdin } := by
  obtain ⟨available, counted, capped⟩ := readCount_le m stdin
  have value : (BitVec.ofNat 32 (m.readCount stdin)).toNat = m.readCount stdin :=
    Nat.mod_eq_of_lt (by omega)
  have size : ((m.stdinLeft stdin).take (m.readCount stdin)).length = m.readCount stdin := by
    rw [List.length_take]
    omega
  have kept : ((m.stdinLeft stdin).take (m.readCount stdin)).take
    (transferCount (m.cpu.readReg regA2)) =
      (m.stdinLeft stdin).take (m.readCount stdin) := List.take_of_length_le (by omega)
  have sliced (padding : List U8) :
    sliceOf? ((m.stdinLeft stdin).take (m.readCount stdin) ++ padding) 0
      (m.readCount stdin) = some ((m.stdinLeft stdin).take (m.readCount stdin)) := by
    rw [sliceOf?, if_pos (by rw [List.length_append]; omega), List.drop_zero, List.take_left' size]
  have answered : (readFromStdin env.host (transferCount (m.cpu.readReg regA2)) :
      Prog Bus CpuError _).run m.bus =
      .ok (BitVec.ofNat 32 (m.readCount stdin), (m.stdinLeft stdin).take (m.readCount stdin) ++
        List.replicate (transferCount (m.cpu.readReg regA2) - m.readCount stdin) 0)
          (m.asked stdin) := by
    simp only [readFromStdin, run_bind, run_get, Outcome.andThen_ok, native, nativeStdin_eq short,
      run_modify, run_pure,
      kept, size]
    rfl
  rw [sysRead, run_bind, run_onBus answered, Outcome.andThen_ok]
  dsimp only
  by_cases some : 0 < m.readCount stdin
  · rw [if_pos ((toInt_answer_pos capped).mpr some), if_pos some, value, sliced,
      expect_some, pure_bind]
    rfl
  · rw [if_neg (mt (toInt_answer_pos capped).mp some), if_neg some]
    rfl

/-- One call, from any state of the input. -/
theorem handleEcall_reads (short : stdin.length < 2 ^ 32)
    (native : env.host.readFromStdin = nativeStdin stdin)
    (request : m.RequestsRead)
    (below : (m.cpu.readReg regA1).toNat + m.readCount stdin ≤ 0xFFFF0000) :
    ∃ m', (handleEcall env).run m = .ok () m' ∧ ReadsNext stdin m m' := by
  obtain ⟨available, -, capped⟩ := readCount_le m stdin
  have value : (BitVec.ofNat 32 (m.readCount stdin)).toNat = m.readCount stdin :=
    Nat.mod_eq_of_lt (by omega)
  have size : ((m.stdinLeft stdin).take (m.readCount stdin)).length = m.readCount stdin := by
    rw [List.length_take]
    omega
  rw [handleEcall_read request, sysRead_native short native]
  by_cases some : 0 < m.readCount stdin
  · obtain ⟨mem, written, flat, brk⟩ :=
      writeEach_ram (ε := CpuError) (m.asked stdin) (m.cpu.readReg regA1)
      ((m.stdinLeft stdin).take (m.readCount stdin)) (by rw [size]; exact below)
    have fits : ((m.stdinLeft stdin).take (m.readCount stdin)).length ≤ 2 ^ 32 := by omega
    rw [← writeBytes_each] at written
    refine ⟨⟨m.cpu.writeReg regA0 (BitVec.ofNat 32 (m.readCount stdin)),
      { m.asked stdin with mem := mem }⟩, ?_, rfl,
      value, ?_, ?_, brk, stdinLeft_asked short mem _⟩
    · rw [if_pos some, run_bind, run_onBus (m := { m with bus := m.asked stdin }) written,
        Outcome.andThen_ok]
      rfl
    · have back := span_put m.bus.mem.flat (m.cpu.readReg regA1) _ fits
      rw [size] at back
      change span mem.flat _ _ = _
      rw [flat]
      exact back
    · intro x outside
      change mem.flat x = _
      rw [flat]
      exact put_outside _ _ _ fits (by rw [size]; exact outside)
  · have none : m.readCount stdin = 0 := by omega
    rw [if_neg some]
    refine ⟨_, rfl, ?_, ?_, ?_, fun _ _ => rfl, ⟨rfl, rfl⟩, stdinLeft_asked short m.bus.mem _⟩
    · rw [none]
      rfl
    · rw [none]
      rfl
    · rw [none]
      rfl

/-- A `SYS_read` of the guest: the machine it was made on and the machine it left. -/
structure ReadCall where
  before : Machine
  after : Machine

/-- What the guest finds in its buffer after a call. -/
def ReadCall.received (call : ReadCall) : List U8 :=
  span call.after.bus.mem.flat (call.before.cpu.readReg regA1) (call.after.cpu.readReg regA0).toNat

/-- From `m` the guest comes to a `SYS_read` with a buffer below the window. What it did in
between may have changed everything but the input. -/
structure ReadCall.Made (env : Env) (stdin : List U8) (m : Machine) (call : ReadCall)
    (m' : Machine) : Prop where
  input : call.before.stdinLeft stdin = m.stdinLeft stdin
  request : call.before.RequestsRead
  below : (call.before.cpu.readReg regA1).toNat + call.before.readCount stdin ≤ 0xFFFF0000
  run : (handleEcall env).run call.before = .ok () call.after
  last : m' = call.after

theorem ReadCall.Made.readsNext (short : stdin.length < 2 ^ 32)
    (native : env.host.readFromStdin = nativeStdin stdin)
    {call : ReadCall} {m' : Machine} (made : call.Made env stdin m m') :
    ReadsNext stdin call.before call.after := by
  obtain ⟨after, run, reads⟩ := handleEcall_reads short native made.request made.below
  obtain ⟨-, rfl⟩ := Outcome.ok.inj (run.symm.trans made.run)
  exact reads

/-- What a call delivers is the front of the input that was left, and the rest stays. -/
theorem ReadCall.Made.split (short : stdin.length < 2 ^ 32)
    (native : env.host.readFromStdin = nativeStdin stdin)
    {call : ReadCall} {m' : Machine} (made : call.Made env stdin m m') :
    m.stdinLeft stdin = call.received ++ m'.stdinLeft stdin := by
  have reads := made.readsNext short native
  rw [ReadCall.received, reads.answer, reads.bytes, made.last, reads.left, ← made.input,
    List.take_append_drop]

/-- Everything received so far, in order, followed by what is left, is the input. -/
theorem received_append_left (short : stdin.length < 2 ^ 32)
    (native : env.host.readFromStdin = nativeStdin stdin)
    {start last : Machine} {moves : List (Machine × ReadCall)}
    (calls : Trace (fun m call m' => ReadCall.Made env stdin m call m') start moves last) :
    start.stdinLeft stdin = (moves.reverse.map fun move => move.2.received).flatten ++
      last.stdinLeft stdin := by
  induction calls with
  | start => rfl
  | step before made ih =>
    rw [ih, ReadCall.Made.split short native made]
    simp

/-- `SYS_read` neither loses nor duplicates input. Every call returns with the next bytes of
the input, as many as are left, asked for and allowed, and after any number of calls, with
anything in between, what was received is the front of the input. -/
theorem sys_read_lossless (env : Env) (stdin : List U8) (short : stdin.length < 2 ^ 32)
    (native : env.host.readFromStdin = nativeStdin stdin) :
    (∀ m : Machine, m.RequestsRead → (m.cpu.readReg regA1).toNat + m.readCount stdin ≤ 0xFFFF0000 →
      ∃ m', (handleEcall env).run m = .ok () m' ∧ ReadsNext stdin m m') ∧
    ∀ (start last : Machine) (moves : List (Machine × ReadCall)), start.stdinLeft stdin = stdin →
      Trace (fun m call m' => ReadCall.Made env stdin m call m') start moves last →
      (moves.reverse.map fun move => move.2.received).flatten =
        stdin.take (moves.map fun move => (move.2.after.cpu.readReg regA0).toNat).sum ∧
      (moves.map fun move => (move.2.after.cpu.readReg regA0).toNat).sum ≤ stdin.length ∧
      last.stdinLeft stdin = stdin.drop
        (moves.map fun move => (move.2.after.cpu.readReg regA0).toNat).sum := by
  refine ⟨fun m request below => handleEcall_reads short native request below, ?_⟩
  intro start last moves fresh calls
  have whole := received_append_left short native calls
  rw [fresh] at whole
  have total : (moves.map fun move => (move.2.after.cpu.readReg regA0).toNat).sum =
      ((moves.reverse.map fun move => move.2.received).flatten).length := by
    have sizes : (fun move : Machine × ReadCall => (move.2.after.cpu.readReg regA0).toNat) =
        fun move => move.2.received.length := by
      funext move
      exact (length_span _ _ _).symm
    rw [List.length_flatten, List.map_map, ← List.sum_reverse, ← List.map_reverse, sizes]
    rfl
  rw [total]
  generalize (moves.reverse.map fun move => move.2.received).flatten = front at whole ⊢
  generalize last.stdinLeft stdin = rest at whole ⊢
  rw [whole]
  refine ⟨?_, ?_, ?_⟩
  · exact List.take_left.symm
  · rw [List.length_append]
    exact Nat.le_add_right _ _
  · exact List.drop_left.symm

/-- The native host with three bytes of input, and nothing else behind it. -/
def threeBytes : Env :=
  { (default : Env) with host := { (default : Host) with readFromStdin := nativeStdin [1, 2, 3] } }

/-- A machine about to read two bytes to the end of its first page. -/
def Machine.reading : Machine :=
  { Machine.new with cpu := ((Cpu.new.writeReg regA7 63).writeReg regA1 0xFFFF).writeReg regA2 2 }

/-- The first two of three bytes, across a page edge, and then the last. -/
theorem sys_read_lossless_twice :
    ∃ first second : ReadCall, ReadCall.Made threeBytes [1, 2, 3] .reading first first.after ∧
      ReadCall.Made threeBytes [1, 2, 3] first.after second second.after ∧
      first.received ++ second.received = [1, 2, 3] := by
  have short : ([1, 2, 3] : List U8).length < 2 ^ 32 := by decide
  obtain ⟨each, total⟩ := sys_read_lossless threeBytes [1, 2, 3] short rfl
  have room : (Machine.reading.cpu.readReg regA1).toNat + Machine.reading.readCount [1, 2, 3] ≤
    0xFFFF0000 := by
    decide
  obtain ⟨after, run, reads⟩ := each .reading ⟨rfl, .inl rfl⟩ room
  have left : Machine.stdinLeft ⟨Machine.reading.cpu, after.bus⟩ [1, 2, 3] = [3] := reads.left
  have count : Machine.readCount ⟨Machine.reading.cpu, after.bus⟩ [1, 2, 3] = 1 := by
    rw [Machine.readCount, left]
    rfl
  have below : (Machine.reading.cpu.readReg regA1).toNat +
      Machine.readCount ⟨Machine.reading.cpu, after.bus⟩ [1, 2, 3] ≤ 0xFFFF0000 := by
    rw [count]
    decide
  obtain ⟨last, again, readsLast⟩ := each ⟨Machine.reading.cpu, after.bus⟩ ⟨rfl, .inl rfl⟩ below
  have first : ReadCall.Made threeBytes [1, 2, 3] .reading ⟨.reading, after⟩ after :=
    ⟨rfl, ⟨rfl, .inl rfl⟩, room, run, rfl⟩
  have second : ReadCall.Made threeBytes [1, 2, 3] after
    ⟨⟨Machine.reading.cpu, after.bus⟩, last⟩ last :=
    ⟨rfl, ⟨rfl, .inl rfl⟩, below, again, rfl⟩
  obtain ⟨received, -⟩ := total .reading last _ rfl (.step (.step .start first) second)
  refine ⟨_, _, first, second, ?_⟩
  have sizes : (last.cpu.readReg regA0).toNat + ((after.cpu.readReg regA0).toNat + 0) = 3 := by
    rw [readsLast.answer, reads.answer, count]
    rfl
  change ReadCall.received _ ++ (ReadCall.received _ ++ []) = List.take (_ + (_ + 0)) _ at received
  rw [sizes, List.append_nil] at received
  exact received

end Reading

end RiscvRs
