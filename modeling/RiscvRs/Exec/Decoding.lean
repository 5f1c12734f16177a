import RiscvRs.Exec.Operations

/-! The executors are their operations: reading the processor, decoding and
executing in the source's order comes to one operation carried out. -/

namespace RiscvRs

open Effects Prog

section Words

variable (env : Env) (inst : DecodedInst32) (next : U32)

section Checked

variable {env} {α β : Type} {raw : U32} {result : Option α}

/-- A checked result and the operation on it. -/
theorem checked_next {f : α → Exec U32} {op : α → Op} (each : ∀ a, f a = (op a).exec env) :
    orIllegal raw result >>= f = (Op.ofResult raw result op).exec env := by
  cases result with
  | none => rfl
  | some a => exact each a

theorem checked_exec {f : α → Exec β} {g : β → Exec U32} {op : α → Op}
    (each : ∀ a, f a >>= g = (op a).exec env) :
    orIllegal raw result >>= f >>= g = (Op.ofResult raw result op).exec env :=
  (bind_assoc _ _ _).trans (checked_next each)

end Checked

theorem exec_storeWord (addr val : U32) : (Op.store .word addr val next).exec env = (do
      onBus (Memory.writeU32 addr val)
      return next : Exec U32) := by
  have same : val.setWidth Width.word.bits = val := BitVec.setWidth_eq val
  rw [Op.exec, same]
  rfl

theorem loadValue_exec (raw : U32) (funct3 : U8) (rd : Fin 32) (addr : U32) :
    (do
      let val ← loadValue env raw funct3 addr
      modifyCpu (·.writeReg rd val)
      return next : Exec U32) =
      (Op.ofResult raw (LoadKind.ofFunct3? funct3) fun kind => .load kind rd addr next).exec env := by
  unfold loadValue LoadKind.ofFunct3?
  split
  · exact bind_assoc _ _ _
  · exact bind_assoc _ _ _
  · rfl
  · exact bind_assoc _ _ _
  · exact bind_assoc _ _ _
  · simp only [Op.ofResult, *]
    rfl

theorem storeValue_exec (raw : U32) (funct3 : U8) (addr val : U32) :
    (do
      storeValue raw funct3 addr val
      return next : Exec U32) =
      (Op.ofResult raw (Width.ofFunct3? funct3) fun width => .store width addr val next).exec env := by
  unfold storeValue Width.ofFunct3?
  split
  · rfl
  · rfl
  · rfl
  · simp only [Op.ofResult, *]
    rfl

theorem execOpFpS_exec :
    (do
      execOpFpS env inst
      return next : Exec U32) = getCpu >>= fun cpu => (inst.opFpSOp env cpu next).exec env := by
  rw [execOpFpS, bind_assoc]
  congr 1
  funext cpu
  dsimp only [DecodedInst32.opFpSOp]
  generalize inst.funct7 >>> 2 = funct5
  split
  · rfl
  · rfl
  · rfl
  · rfl
  · rfl
  · exact checked_exec fun _ => rfl
  · exact checked_exec fun _ => rfl
  · rfl
  · rfl
  · split
    · rfl
    · split <;> rfl
  · rfl
  · exact checked_exec fun _ => rfl
  · rfl
  · try simp only [*]
    rfl

theorem execOpFpD_exec :
    (do
      execOpFpD env inst
      return next : Exec U32) = getCpu >>= fun cpu => (inst.opFpDOp env cpu next).exec env := by
  rw [execOpFpD, bind_assoc]
  congr 1
  funext cpu
  dsimp only [DecodedInst32.opFpDOp]
  generalize inst.funct7 >>> 2 = funct5
  split
  · rfl
  · rfl
  · rfl
  · rfl
  · rfl
  · exact checked_exec fun _ => rfl
  · exact checked_exec fun _ => rfl
  · rfl
  · rfl
  · rfl
  · split <;> rfl
  · exact checked_exec fun _ => rfl
  · try simp only [*]
    rfl

theorem execFused_exec :
    (do
      execFused env inst
      return next : Exec U32) = getCpu >>= fun cpu => (inst.fusedOp env cpu next).exec env := by
  rw [execFused, bind_assoc]
  congr 1
  funext cpu
  dsimp only [DecodedInst32.fusedOp]
  split
  · exact checked_exec fun _ => rfl
  · split
    · exact checked_exec fun _ => rfl
    · rfl

theorem execLoadFp_exec :
    (do
      execLoadFp env inst
      return next : Exec U32) = getCpu >>= fun cpu => (inst.loadFpOp cpu next).exec env := by
  rw [execLoadFp, bind_assoc]
  congr 1
  funext cpu
  dsimp only [DecodedInst32.loadFpOp]
  split
  · rw [bind_assoc]
    rfl
  · split
    · simp only [bind_assoc]
      rfl
    · rfl

theorem execStoreFp_exec :
    (do
      execStoreFp env inst
      return next : Exec U32) = getCpu >>= fun cpu => (inst.storeFpOp cpu next).exec env := by
  rw [execStoreFp, bind_assoc]
  congr 1
  funext cpu
  dsimp only [DecodedInst32.storeFpOp]
  split
  · exact (exec_storeWord env next _ _).symm
  · split
    · simp only [bind_assoc]
      rfl
    · rfl

theorem execCsr_exec :
    execCsr env inst next = getCpu >>= fun cpu => (inst.systemOp cpu next).exec env := by
  rw [execCsr]
  congr 1
  funext cpu
  dsimp only [DecodedInst32.systemOp]
  split
  · split
    · rfl
    · split
      · rfl
      · split <;> rfl
  · rfl

theorem execRv32i_exec :
    execRv32i env inst next = getCpu >>= fun cpu => (inst.baseOp cpu next).exec env := by
  rw [execRv32i]
  congr 1
  funext cpu
  dsimp only [DecodedInst32.baseOp]
  cases Opcode.ofBits? inst.opcode with
  | none => rfl
  | some code =>
    cases code with
    | branch => exact checked_next fun _ => rfl
    | load => exact loadValue_exec env next inst.raw inst.funct3 inst.rd _
    | store => exact storeValue_exec env next inst.raw inst.funct3 _ _
    | imm =>
      dsimp only
      rw [opImmResult_shamt]
      exact checked_next fun _ => rfl
    | op =>
      dsimp only
      rw [opResult_eq]
      exact checked_next fun _ => rfl
    | _ => rfl

theorem execRv32m_exec :
    (do
      execRv32m env inst
      return next : Exec U32) = getCpu >>= fun cpu => (inst.mulDivOp cpu next).exec env := by
  rw [execRv32m, bind_assoc]
  congr 1
  funext cpu
  rw [mulDivResult_eq]
  exact checked_exec fun _ => rfl

theorem execRv32a_exec :
    (do
      execRv32a env inst
      return next : Exec U32) = getCpu >>= fun cpu => (inst.amoOp cpu next).exec env := by
  rw [execRv32a, bind_assoc]
  congr 1
  funext cpu
  dsimp only [DecodedInst32.amoOp, Op.exec]
  simp only [bind_assoc]
  congr 1
  funext oldVal
  congr 1
  funext newVal
  split
  · exact bind_assoc _ _ _
  · rfl

theorem execOpFp_exec (known : Opcode.ofBits? inst.opcode = some .opFp) :
    (do
      execRv32fd env inst
      return next : Exec U32) = getCpu >>= fun cpu => (inst.opFpOp env cpu next).exec env := by
  rw [execRv32fd, known]
  dsimp only [DecodedInst32.opFpOp]
  split
  · exact execOpFpS_exec env inst next
  · split
    · exact execOpFpD_exec env inst next
    · rfl

/-- `execute_inst32` decodes to one operation. -/
theorem dispatch_exec (m : Machine) :
    (executeInst32.dispatch env inst m.cpu.pc next).run m =
      ((inst.op env m.cpu next).exec env).run m := by
  have read {x : Exec U32} {f : Cpu → Op} (same : x = getCpu >>= fun cpu => (f cpu).exec env) :
      x.run m = ((f m.cpu).exec env).run m := by
    rw [same]
    rfl
  unfold executeInst32.dispatch DecodedInst32.op
  cases known : Opcode.ofBits? inst.opcode with
  | none => rfl
  | some code =>
    cases code with
    | op =>
      dsimp only
      split
      · exact read (execRv32m_exec env inst next)
      · exact read (execRv32i_exec env inst next)
    | lui | auipc | jal | jalr | branch | load | store | imm | miscMem =>
      exact read (execRv32i_exec env inst next)
    | system => exact read (execCsr_exec env inst next)
    | amo => exact read (execRv32a_exec env inst next)
    | loadFp =>
      rw [execRv32fd, known]
      exact read (execLoadFp_exec env inst next)
    | storeFp =>
      rw [execRv32fd, known]
      exact read (execStoreFp_exec env inst next)
    | opFp => exact read (execOpFp_exec env inst next known)
    | madd | msub | nmsub | nmadd =>
      rw [execRv32fd, known]
      exact read (execFused_exec env inst next)

end Words

section Halfwords

variable (env : Env) (inst : U16) (next : U32)

theorem loadDouble_exec (rd : Fin 32) (addr : U32) :
    (do
      loadDouble env rd addr
      return next : Exec U32) = (Op.loadDouble false rd addr next).exec env := by
  simp only [loadDouble, bind_assoc]
  rfl

theorem storeDouble_exec (bits : U64) (addr : U32) :
    (do
      storeDouble bits addr
      return next : Exec U32) = (Op.storeDouble false bits addr next).exec env := by
  simp only [storeDouble, bind_assoc]
  rfl

theorem loadWord_exec (rd : Fin 32) (addr : U32) :
    (do
      loadWord env rd addr
      return next : Exec U32) = (Op.load .lw rd addr next).exec env := by
  simp only [loadWord, bind_assoc]
  rfl

theorem loadSingle_exec (rd : Fin 32) (addr : U32) :
    (do
      loadSingle env rd addr
      return next : Exec U32) = (Op.loadSingle rd addr next).exec env := by
  simp only [loadSingle, bind_assoc]
  rfl

theorem execQuadrant0_exec (funct3 : U8) :
    execQuadrant0 env inst funct3 next = getCpu >>= fun cpu =>
      (quadrant0Op inst cpu next funct3).exec env := by
  rw [execQuadrant0]
  congr 1
  funext cpu
  unfold quadrant0Op
  split
  · split <;> rfl
  · exact loadDouble_exec env next _ _
  · exact loadWord_exec env next _ _
  · exact loadSingle_exec env next _ _
  · exact storeDouble_exec env next _ _
  · exact (exec_storeWord env next _ _).symm
  · exact (exec_storeWord env next _ _).symm
  · try simp only [*]
    rfl

theorem execLuiGroup_exec :
    execLuiGroup inst next = getCpu >>= fun cpu => (luiGroupOp inst cpu next).exec env := by
  rw [execLuiGroup]
  congr 1
  funext cpu
  dsimp only [luiGroupOp]
  split
  · split <;> rfl
  · split
    · split <;> rfl
    · rfl

theorem execAluGroup_exec :
    execAluGroup env inst next = getCpu >>= fun cpu => (aluGroupOp inst cpu next).exec env := by
  rw [execAluGroup]
  congr 1
  funext cpu
  simp only [aluGroupOp, rightShift_eq, pure_bind]
  generalize shiftThenMask inst 10 0x3 = group
  split
  · split
    · rfl
    · split <;> rfl
  · split
    · rfl
    · split <;> rfl
  · rfl
  · try simp only [*]
    split <;> rfl

theorem execQuadrant1_exec (funct3 : U8) :
    execQuadrant1 env inst funct3 next = getCpu >>= fun cpu =>
      (quadrant1Op inst cpu next funct3).exec env := by
  -- the groups read the processor once more
  have again {x : Exec U32} {f : Cpu → Op} (same : x = getCpu >>= fun cpu => (f cpu).exec env) :
      (getCpu >>= fun _ => x) = getCpu >>= fun cpu => (f cpu).exec env := by
    rw [same]
    rfl
  unfold execQuadrant1 quadrant1Op
  split
  · congr 1
    funext cpu
    dsimp only
    split <;> rfl
  · rfl
  · rfl
  · exact again (execLuiGroup_exec env inst next)
  · exact again (execAluGroup_exec env inst next)
  · rfl
  · rfl
  · rfl
  · try simp only [*]
    rfl

theorem execJumpGroup_exec :
    execJumpGroup inst next = getCpu >>= fun cpu => (jumpGroupOp inst cpu next).exec env := by
  rw [execJumpGroup]
  congr 1
  funext cpu
  dsimp only [jumpGroupOp]
  split
  · split <;> rfl
  · split
    · split <;> rfl
    · split
      · rfl
      · split
        · rfl
        · split <;> rfl

theorem execQuadrant2_exec (funct3 : U8) :
    execQuadrant2 env inst funct3 next = getCpu >>= fun cpu =>
      (quadrant2Op inst cpu next funct3).exec env := by
  rw [execQuadrant2]
  unfold quadrant2Op
  split
  · congr 1
    funext cpu
    simp only [shlU32_small env.build (shamt16_lt inst), pure_bind]
    split
    · rfl
    · split <;> rfl
  · exact congrArg (getCpu >>= ·) (funext fun _ => loadDouble_exec env next _ _)
  · congr 1
    funext cpu
    dsimp only
    split
    · rfl
    · exact loadWord_exec env next _ _
  · exact congrArg (getCpu >>= ·) (funext fun _ => loadSingle_exec env next _ _)
  · rw [execJumpGroup_exec env]
    rfl
  · exact congrArg (getCpu >>= ·) (funext fun _ => storeDouble_exec env next _ _)
  · exact congrArg (getCpu >>= ·) (funext fun _ => (exec_storeWord env next _ _).symm)
  · exact congrArg (getCpu >>= ·) (funext fun _ => (exec_storeWord env next _ _).symm)
  · try simp only [*]
    rfl

/-- `execute_inst16` decodes to one operation. -/
theorem execQuadrant_exec (quadrant funct3 : U8) :
    execQuadrant env inst quadrant funct3 next =
      getCpu >>= fun cpu => (quadrantOp inst cpu next quadrant funct3).exec env := by
  unfold execQuadrant quadrantOp
  split
  · exact execQuadrant0_exec env inst next funct3
  · exact execQuadrant1_exec env inst next funct3
  · exact execQuadrant2_exec env inst next funct3
  · try simp only [*]
    rfl

end Halfwords

/-- An instruction is its operation, and then control moves. -/
theorem Fetched.execute_run (env : Env) (inst : Fetched) (m : Machine) :
    (inst.execute env).run m =
      (((inst.op env m.cpu).exec env).run m).andThen fun next m' => .ok () (m'.jump next) := by
  cases inst with
  | half inst =>
    rw [Fetched.execute, executeInst16_run, execQuadrant_exec]
    rfl
  | word inst =>
    rw [Fetched.execute, executeInst32_run, dispatch_exec]
    rfl

/-- What an instruction that completes did: its operation, then the move of `pc`. -/
theorem Fetched.execute_ok {env : Env} {inst : Fetched} {m m' : Machine}
    (run : (inst.execute env).run m = .ok () m') :
    ∃ next n, ((inst.op env m.cpu).exec env).run m = .ok next n ∧ m' = n.jump next := by
  rw [Fetched.execute_run, Outcome.andThen_eq_ok] at run
  obtain ⟨next, n, exec, jump⟩ := run
  exact ⟨next, n, exec, (Outcome.ok.inj jump).2.symm⟩

end RiscvRs
