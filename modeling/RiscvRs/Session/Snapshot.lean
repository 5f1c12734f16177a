import RiscvRs.Run.Interrupts
import RiscvRs.Session.Simulator
import RiscvRs.Machine.Encoded

/-! The debugger's view of the control registers against what the guest reads. -/

namespace RiscvRs

open Effects Prog

/-- `CSRRS rd, num, x0`. -/
def csrrs (rd : BitVec 5) (num : BitVec 12) : U32 := Isa.encI 0 0b010 rd 0b1110011 num

/-- A read of `num` by the guest, into any register, gives `val`. -/
def GuestReads (env : Env) (m : Machine) (num : BitVec 12) (val : U32) : Prop :=
  ∀ rd : BitVec 5, rd ≠ 0 →
    ∃ m', (executeInst32 env (csrrs rd num)).run m = .ok () m' ∧ m'.cpu.readReg rd.toFin = val

/-- The number in the word is the number meant. -/
theorem csrrs_number (rd : BitVec 5) (num : BitVec 12) : csrrs rd num >>> 20 = num.setWidth 32 := by
  have bound := num.isLt
  have rdBound := rd.isLt
  apply BitVec.eq_of_toNat_eq
  have value : Isa.bits (csrrs rd num).toNat 31 20 = num.toNat := by
    simp only [csrrs, Isa.encI, Bytes.toNat_append_eq, Isa.bits]
    omega
  have whole := (csrrs rd num).isLt
  rw [BitVec.toNat_ushiftRight, Nat.shiftRight_eq_div_pow, BitVec.toNat_setWidth, ← value, Isa.bits]
  omega

theorem csrrs_slot (num : BitVec 12) :
    ((num.setWidth 32 : U32) &&& 0xFFF).setWidth 16 = (num.setWidth 16 : U16) := by
  have bound := num.isLt
  apply BitVec.eq_of_toNat_eq
  rw [BitVec.toNat_setWidth, BitVec.toNat_and, BitVec.toNat_setWidth, BitVec.toNat_setWidth]
  have low : num.toNat % 2 ^ 32 &&& 4095 = num.toNat % 2 ^ 32 % 2 ^ 12 :=
    Nat.and_two_pow_sub_one_eq_mod (num.toNat % 2 ^ 32) 12
  change (num.toNat % 2 ^ 32 &&& 4095) % 2 ^ 16 = _
  rw [low]
  omega

/-- What `CSRRS rd, num, x0` does. -/
theorem csrrs_run (env : Env) (m : Machine) (rd : BitVec 5) (num : BitVec 12) :
    (executeInst32 env (csrrs rd num)).run m =
      .ok () { m with cpu := { m.cpu.writeReg rd.toFin (m.cpu.csrs.get (num.setWidth 16)) with
        pc := m.cpu.pc + 4 } } := by
  obtain ⟨opcode, dest, minor, src, -⟩ :=
    decode_encI _ _ _ _ _ (show DecodedInst32.decode (csrrs rd num) = _ from rfl)
  have major : Opcode.ofBits? (DecodedInst32.decode (csrrs rd num)).opcode = some .system :=
    congrArg _ opcode
  have raw : (DecodedInst32.decode (csrrs rd num)).raw >>> 20 = num.setWidth 32 :=
    csrrs_number rd num
  have other : (DecodedInst32.decode (csrrs rd num)).funct3 ≠ 0 := by
    rw [minor]
    decide
  have same : csrResult (DecodedInst32.decode (csrrs rd num)).funct3
    (m.cpu.csrs.get (num.setWidth 16))
      (m.cpu.readReg (DecodedInst32.decode (csrrs rd num)).rs1)
        (DecodedInst32.decode (csrrs rd num)).rs1 =
        m.cpu.csrs.get (num.setWidth 16) := by
    rw [minor, src]
    exact BitVec.or_zero
  rw [executeInst32_run, dispatch_exec, DecodedInst32.op, major]
  dsimp only
  rw [DecodedInst32.systemOp, if_neg other]
  dsimp only
  rw [raw, csrrs_slot, same, dest]
  simp only [Op.exec, run_bind, run_modifyCpu, Outcome.andThen_ok, run_pure, CsrFile.set_get]

/-- The read is of the register file. -/
theorem guestReads_iff (env : Env) (m : Machine) (num : BitVec 12) (val : U32) :
    GuestReads env m num val ↔ m.cpu.csrs.get (num.setWidth 16) = val := by
  have value (rd : BitVec 5) (nonzero : rd ≠ 0) (next : U32) :
      { m.cpu.writeReg rd.toFin (m.cpu.csrs.get (num.setWidth 16)) with
        pc := next }.readReg rd.toFin =
        m.cpu.csrs.get (num.setWidth 16) := by
    have index : rd.toFin ≠ 0 := by
      intro zero
      exact nonzero (BitVec.eq_of_toFin_eq zero)
    simp [Cpu.readReg, Cpu.writeReg, index]
  constructor
  · intro reads
    obtain ⟨m', run, read⟩ := reads 1 (by decide)
    rw [csrrs_run] at run
    obtain ⟨-, rfl⟩ := Outcome.ok.inj run
    rw [← read]
    exact (value 1 (by decide) _).symm
  · intro same rd nonzero
    refine ⟨_, csrrs_run env m rd num, ?_⟩
    rw [← same]
    exact value rd nonzero _

def fcsrNum : U16 := 0x003

/-- The registers a snapshot shows, in its order. -/
def shownCsrs : List (BitVec 12) := [0x300, 0x342, 0x341, 0x305, 0x003]

/-- What the debugger shows is what the guest reads. -/
def Shown (env : Env) (m : Machine) : Prop :=
  ∀ isBreakpoint hitAddress,
    List.Forall₂ (GuestReads env m) shownCsrs (m.cpu.snapshot isBreakpoint hitAddress).csrs

/-- Four of the five come from the register file itself. -/
theorem shown_iff (env : Env) (m : Machine) :
    Shown env m ↔ m.cpu.csrs.get fcsrNum = m.cpu.fcsr := by
  have reads (num : BitVec 12) : GuestReads env m num (m.cpu.csrs.get (num.setWidth 16)) :=
    (guestReads_iff env m num _).mpr rfl
  constructor
  · intro shown
    have all := shown false 0
    simp only [shownCsrs, Cpu.snapshot, List.forall₂_cons] at all
    exact (guestReads_iff env m 0x003 _).mp all.2.2.2.2.1
  · intro same isBreakpoint hitAddress
    have last := (guestReads_iff env m 0x003 m.cpu.fcsr).mpr same
    exact .cons (reads 0x300)
      (.cons (reads 0x342) (.cons (reads 0x341) (.cons (reads 0x305) (.cons last .nil))))

/-- The move does not change what the guest reads as `fcsr`. -/
def Turn.KeepsFcsr (cpu : Cpu) : Turn → Prop
  | exec inst => inst.csrNamed? = some fcsrNum → inst.csrValue cpu fcsrNum = cpu.csrs.get fcsrNum
  | _ => True

theorem Steered.fcsr_iff {s t : Cpu} {turn : Turn} (steered : Steered s t turn) :
    t.csrs.get fcsrNum = s.csrs.get fcsrNum ↔ turn.KeepsFcsr s := by
  cases steered with
  | @exec inst control =>
    cases control with
    | mret returns csrs pc =>
      have kept : t.csrs.get fcsrNum = s.csrs.get fcsrNum := by
        rw [csrs]
        exact CsrFile.get_set_of_ne _ (by decide) _
      exact iff_of_true kept (by simp [Turn.KeepsFcsr, Fetched.csrNamed?_of_isMret returns])
    | named num other named csrs pc =>
      by_cases here : num = fcsrNum
      · subst here
        rw [csrs, CsrFile.get_set]
        simp [Turn.KeepsFcsr, named]
      · have apart : CsrFile.slot fcsrNum ≠ CsrFile.slot num := by
          intro same
          exact here (CsrFile.slot_inj (by decide) (Fetched.csrNamed?_lt named) same).symm
        rw [csrs, CsrFile.get_set_of_ne _ apart]
        simp [Turn.KeepsFcsr, named, here]
    | plain other unnamed csrs aligned =>
      rw [csrs]
      simp [Turn.KeepsFcsr, unnamed]
  | irq enabled taken =>
    rw [taken, get_handleInterrupt _ _ (by decide) (by decide) (by decide)]
    exact iff_of_true rfl trivial
  | trap csrs pc =>
    rw [csrs]
    exact iff_of_true rfl trivial
  | report csrs pc =>
    rw [csrs]
    exact iff_of_true rfl trivial

/-- The snapshot agrees with the guest along a run exactly as long as the guest
leaves `fcsr` at its value: the field the snapshot shows is never written. -/
theorem snapshot_shows_reads_iff (env : Env) (start last : Tracked)
    (init : Shown env start.machine) :
    (∀ calls, (driveAll env calls).run start = .ok () last → ∃ moves, Moves env start moves last) ∧
    (∀ moves, Moves env start moves last →
      ((Shown env last.machine ∧ ∀ move ∈ moves, Shown env move.1.machine) ↔
        ∀ move ∈ moves, move.2.KeepsFcsr move.1.cpu)) := by
  refine ⟨fun calls run => driveAll_moves run, ?_⟩
  intro moves run
  have each (s : Tracked) (turn : Turn) (t : Tracked) (move : Move env s turn t)
    (here : Shown env s.machine) :
      Shown env t.machine ↔ turn.KeepsFcsr s.cpu := by
    obtain ⟨steered, fcsr⟩ := move.steered
    have same : s.cpu.csrs.get fcsrNum = s.cpu.fcsr := (shown_iff env s.machine).mp here
    calc Shown env t.machine
        ↔ t.cpu.csrs.get fcsrNum = t.cpu.fcsr := shown_iff env t.machine
      _ ↔ t.cpu.csrs.get fcsrNum = s.cpu.csrs.get fcsrNum := by rw [fcsr, same]
      _ ↔ turn.KeepsFcsr s.cpu := steered.fcsr_iff
  have throughout := Trace.holds_iff each run init
  exact throughout

theorem shown_program (env : Env) (bytes : List U8) : Shown env (Tracked.program bytes).machine :=
  (shown_iff env _).mpr rfl

/-- An interrupt changes what is shown and read alike. -/
theorem snapshot_shows_reads_iff_once :
    Shown default (Tracked.interruptible 4).machine ∧
      Shown default ((Tracked.interruptible 4).interrupted 7).machine := by
  have run : Moves default (.interruptible 4) [(.interruptible 4, .irq 7)]
      ((Tracked.interruptible 4).interrupted 7) := .single (.irq _ rfl (by decide) 7)
  have fresh : Shown default (Tracked.interruptible 4).machine :=
    (shown_iff default _).mpr (by decide)
  have kept : Turn.KeepsFcsr (Tracked.interruptible 4).cpu (.irq 7) := trivial
  exact ⟨fresh, (((snapshot_shows_reads_iff default _ _ fresh).2 _ run).mpr
    (by simpa using kept)).1⟩

/-- `csrrwi x0, fcsr, 1` on a fresh machine: the guest reads 1, the debugger shows 0. -/
theorem snapshot_misses_fcsr :
    ∃ (bytes : List U8) (calls : List Drive) (last : Tracked), Shown default
      (Tracked.program bytes).machine ∧
      (driveAll default calls).run (.program bytes) = .ok () last ∧
      (last.cpu.snapshot false 0).csrs.getLast? = some 0 ∧ GuestReads default last.machine 0x003 1 ∧
      ¬Shown default last.machine := by
  refine ⟨[0x73, 0xD0, 0x30, 0x00], [.step], _, shown_program _ _, rfl, rfl, ?_, ?_⟩
  · rw [guestReads_iff]
    rfl
  · rw [shown_iff]
    decide

end RiscvRs
