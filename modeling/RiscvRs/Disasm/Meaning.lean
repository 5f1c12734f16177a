import RiscvRs.Disasm.Reading
import RiscvRs.Exec.Operations

/-! What a line of a listing says its instruction does, and that it is what the
executor does with the word it was printed for. -/

namespace RiscvRs

section Meaning

variable (cpu : Cpu) (next : U32)

/-- A printed number, as a word. -/
def numeral (val : Int) : U32 := BitVec.ofInt 32 val

def addressOf (offset : Int) (base : Fin 32) : U32 := cpu.readReg base + numeral offset

def jalrOp (rd : Fin 32) (offset : Int) (base : Fin 32) : Op :=
  .write rd next (addressOf cpu offset base &&& ~~~1)

def branchOp (taken : Bool) (target : U32) : Op := .goto (if taken then target else next)

def csrOp (funct3 : U8) (rd : Fin 32) (num : U32) (rs1 : Fin 32) : Op :=
  let csrNum := (num &&& 0xFFF).setWidth 16
  let oldVal := cpu.csrs.get csrNum
  .csr csrNum (csrResult funct3 oldVal (cpu.readReg rs1) rs1) rd oldVal next

def lowWord (reg : Fin 32) : U32 := (cpu.fregs reg &&& 0xFFFFFFFF).setWidth 32

/-- The compressed writes that do nothing to `zero`. -/
def unlessZero (rd : Fin 32) (val : U32) : Op := if rd ≠ 0 then .write rd val next else .goto next

/-- The operation of a line that stands at `pc`, with `next` after it. -/
def Asm.op (line : Asm) : Op :=
  let x := cpu.readReg
  match line.mnemonic, line.operands with
  | .lui, [.reg rd, .int imm] => .write rd (numeral imm <<< 12) next
  | .auipc, [.reg rd, .int imm] => .write rd (cpu.pc + numeral imm <<< 12) next
  | .j, [.hex target _] => .write 0 next target
  | .jal, [.reg rd, .hex target _] => .write rd next target
  | .ret, [] => jalrOp cpu next 0 0 1
  | .jr, [.reg rs1] => jalrOp cpu next 0 0 rs1
  | .jalr, [.reg rd, .mem imm rs1] => jalrOp cpu next rd imm rs1
  | .beqz, [.reg a, .hex target _] => branchOp next (x a == x 0) target
  | .beq, [.reg a, .reg b, .hex target _] => branchOp next (x a == x b) target
  | .bnez, [.reg a, .hex target _] => branchOp next (x a != x 0) target
  | .bne, [.reg a, .reg b, .hex target _] => branchOp next (x a != x b) target
  | .bltz, [.reg a, .hex target _] => branchOp next ((x a).slt (x 0)) target
  | .blt, [.reg a, .reg b, .hex target _] => branchOp next ((x a).slt (x b)) target
  | .bgez, [.reg a, .hex target _] => branchOp next ((x 0).sle (x a)) target
  | .bge, [.reg a, .reg b, .hex target _] => branchOp next ((x b).sle (x a)) target
  | .bltu, [.reg a, .reg b, .hex target _] => branchOp next ((x a).ult (x b)) target
  | .bgeu, [.reg a, .reg b, .hex target _] => branchOp next ((x b).ule (x a)) target
  | .lb, [.reg rd, .mem imm rs1] => .load .lb rd (addressOf cpu imm rs1) next
  | .lh, [.reg rd, .mem imm rs1] => .load .lh rd (addressOf cpu imm rs1) next
  | .lw, [.reg rd, .mem imm rs1] => .load .lw rd (addressOf cpu imm rs1) next
  | .lbu, [.reg rd, .mem imm rs1] => .load .lbu rd (addressOf cpu imm rs1) next
  | .lhu, [.reg rd, .mem imm rs1] => .load .lhu rd (addressOf cpu imm rs1) next
  | .sb, [.reg rs2, .mem imm rs1] => .store .byte (addressOf cpu imm rs1) (x rs2) next
  | .sh, [.reg rs2, .mem imm rs1] => .store .half (addressOf cpu imm rs1) (x rs2) next
  | .sw, [.reg rs2, .mem imm rs1] => .store .word (addressOf cpu imm rs1) (x rs2) next
  | .nop, [] => .write 0 (x 0 + 0) next
  | .li, [.reg rd, .int imm] => .write rd (x 0 + numeral imm) next
  | .mv, [.reg rd, .reg rs1] => .write rd (x rs1 + 0) next
  | .addi, [.reg rd, .reg rs1, .int imm] => .write rd (x rs1 + numeral imm) next
  | .slti, [.reg rd, .reg rs1, .int imm] => .write rd (flag ((x rs1).slt (numeral imm))) next
  | .sltiu, [.reg rd, .reg rs1, .int imm] => .write rd (flag ((x rs1).ult (numeral imm))) next
  | .xori, [.reg rd, .reg rs1, .int imm] => .write rd (x rs1 ^^^ numeral imm) next
  | .ori, [.reg rd, .reg rs1, .int imm] => .write rd (x rs1 ||| numeral imm) next
  | .andi, [.reg rd, .reg rs1, .int imm] => .write rd (x rs1 &&& numeral imm) next
  | .slli, [.reg rd, .reg rs1, .int shamt] => .write rd (x rs1 <<< (shamt.toNat &&& 0x1F)) next
  | .srai, [.reg rd, .reg rs1, .int shamt] =>
    .write rd ((x rs1).sshiftRight (shamt.toNat &&& 0x1F)) next
  | .srli, [.reg rd, .reg rs1, .int shamt] => .write rd (x rs1 >>> (shamt.toNat &&& 0x1F)) next
  | .add, [.reg rd, .reg a, .reg b] => .write rd (x a + x b) next
  | .sub, [.reg rd, .reg a, .reg b] => .write rd (x a - x b) next
  | .sll, [.reg rd, .reg a, .reg b] => .write rd (x a <<< (x b &&& 0x1F).toNat) next
  | .slt, [.reg rd, .reg a, .reg b] => .write rd (flag ((x a).slt (x b))) next
  | .sltu, [.reg rd, .reg a, .reg b] => .write rd (flag ((x a).ult (x b))) next
  | .xor, [.reg rd, .reg a, .reg b] => .write rd (x a ^^^ x b) next
  | .srl, [.reg rd, .reg a, .reg b] => .write rd (x a >>> (x b &&& 0x1F).toNat) next
  | .sra, [.reg rd, .reg a, .reg b] => .write rd ((x a).sshiftRight (x b &&& 0x1F).toNat) next
  | .or, [.reg rd, .reg a, .reg b] => .write rd (x a ||| x b) next
  | .and, [.reg rd, .reg a, .reg b] => .write rd (x a &&& x b) next
  | .mul, [.reg rd, .reg a, .reg b] => .ofResult 0 (mulDivValue 0 (x a) (x b)) (.write rd · next)
  | .mulh, [.reg rd, .reg a, .reg b] => .ofResult 0 (mulDivValue 1 (x a) (x b)) (.write rd · next)
  | .mulhsu, [.reg rd, .reg a, .reg b] => .ofResult 0 (mulDivValue 2 (x a) (x b)) (.write rd · next)
  | .mulhu, [.reg rd, .reg a, .reg b] => .ofResult 0 (mulDivValue 3 (x a) (x b)) (.write rd · next)
  | .div, [.reg rd, .reg a, .reg b] => .ofResult 0 (mulDivValue 4 (x a) (x b)) (.write rd · next)
  | .divu, [.reg rd, .reg a, .reg b] => .ofResult 0 (mulDivValue 5 (x a) (x b)) (.write rd · next)
  | .rem, [.reg rd, .reg a, .reg b] => .ofResult 0 (mulDivValue 6 (x a) (x b)) (.write rd · next)
  | .remu, [.reg rd, .reg a, .reg b] => .ofResult 0 (mulDivValue 7 (x a) (x b)) (.write rd · next)
  | .flw, [.freg rd, .mem imm rs1] => .loadSingle rd (addressOf cpu imm rs1) next
  | .fsw, [.freg rs2, .mem imm rs1] => .store .word (addressOf cpu imm rs1) (lowWord cpu rs2) next
  | .ecall, [] => .ecall next
  | .ebreak, [] => .halt next
  | .mret, [] => .mret (if cpu.csrs.get mepc ≠ 0 then cpu.csrs.get mepc else next)
  | .csrrw, [.reg rd, .hex num _, .reg rs1] => csrOp cpu next 1 rd num rs1
  | .csrrs, [.reg rd, .hex num _, .reg rs1] => csrOp cpu next 2 rd num rs1
  | .csrrc, [.reg rd, .hex num _, .reg rs1] => csrOp cpu next 3 rd num rs1
  | .csrrwi, [.reg rd, .hex num _, .reg rs1] => csrOp cpu next 5 rd num rs1
  | .csrrsi, [.reg rd, .hex num _, .reg rs1] => csrOp cpu next 6 rd num rs1
  | .csrrci, [.reg rd, .hex num _, .reg rs1] => csrOp cpu next 7 rd num rs1
  | .cAddi4spn, [.reg rd, .reg base, .int imm] => .write rd (x base + numeral imm) next
  | .cFld, [.freg rd, .mem imm rs1] | .cFldsp, [.freg rd, .mem imm rs1] =>
    .loadDouble false rd (addressOf cpu imm rs1) next
  | .cLw, [.reg rd, .mem imm rs1] | .cLwsp, [.reg rd, .mem imm rs1] =>
    .load .lw rd (addressOf cpu imm rs1) next
  | .cFlw, [.freg rd, .mem imm rs1] | .cFlwsp, [.freg rd, .mem imm rs1] =>
    .loadSingle rd (addressOf cpu imm rs1) next
  | .cFsd, [.freg rs2, .mem imm rs1] | .cFsdsp, [.freg rs2, .mem imm rs1] =>
    .storeDouble false (cpu.readF64 rs2) (addressOf cpu imm rs1) next
  | .cSw, [.reg rs2, .mem imm rs1] | .cSwsp, [.reg rs2, .mem imm rs1] =>
    .store .word (addressOf cpu imm rs1) (x rs2) next
  | .cFsw, [.freg rs2, .mem imm rs1] | .cFswsp, [.freg rs2, .mem imm rs1] =>
    .store .word (addressOf cpu imm rs1) (lowWord cpu rs2) next
  | .cNop, [] => .goto next
  | .cAddi, [.reg rd, .int imm] =>
    if numeral imm ≠ 0 then .write rd (x rd + numeral imm) next else .goto next
  | .cJal, [.hex target _] => .write 1 next target
  | .cLi, [.reg rd, .int imm] => .write rd (numeral imm) next
  | .cAddi16sp, [.reg rd, .int imm] => .write rd (x rd + numeral imm) next
  | .cLui, [.reg rd, .int imm] => .write rd (numeral imm <<< 12) next
  | .cSrli, [.reg rd, .int shamt] =>
    if shamt.toNat ≠ 0 then .write rd (x rd >>> shamt.toNat) next else .goto next
  | .cSrai, [.reg rd, .int shamt] =>
    if shamt.toNat ≠ 0 then .write rd ((x rd).sshiftRight shamt.toNat) next else .goto next
  | .cAndi, [.reg rd, .int imm] => .write rd (x rd &&& numeral imm) next
  | .cSub, [.reg rd, .reg rs2] => .write rd (x rd - x rs2) next
  | .cXor, [.reg rd, .reg rs2] => .write rd (x rd ^^^ x rs2) next
  | .cOr, [.reg rd, .reg rs2] => .write rd (x rd ||| x rs2) next
  | .cAnd, [.reg rd, .reg rs2] => .write rd (x rd &&& x rs2) next
  | .cJ, [.hex target _] => .goto target
  | .cBeqz, [.reg rs1, .hex target _] => .goto (if x rs1 = 0 then target else next)
  | .cBnez, [.reg rs1, .hex target _] => .goto (if x rs1 ≠ 0 then target else next)
  | .cSlli, [.reg rd, .int shamt] =>
    if rd ≠ 0 ∧ shamt.toNat ≠ 0 then .write rd (x rd <<< shamt.toNat) next else .goto next
  | .cJr, [.reg rs1] => .goto (x rs1 &&& ~~~1)
  | .cMv, [.reg rd, .reg rs2] => unlessZero next rd (x rs2)
  | .cEbreak, [] => .halt next
  | .cJalr, [.reg rs1] => .write 1 next (x rs1 &&& ~~~1)
  | .cAdd, [.reg rd, .reg rs2] => unlessZero next rd (x rd + x rs2)
  | _, _ => .illegal 0

end Meaning

theorem numeral_toInt (val : U32) : numeral val.toInt = val := BitVec.ofInt_toInt

theorem numeral_toNat (val : U32) : numeral val.toNat = val := by
  rw [numeral, BitVec.ofInt_natCast, BitVec.ofNat_toNat, BitVec.setWidth_eq]

theorem addressOf_toInt (cpu : Cpu) (offset : U32) (base : Fin 32) :
    addressOf cpu offset.toInt base = cpu.readReg base + offset := by
  rw [addressOf, numeral_toInt]

theorem addressOf_toNat (cpu : Cpu) (offset : U32) (base : Fin 32) :
    addressOf cpu offset.toNat base = cpu.readReg base + offset := by
  rw [addressOf, numeral_toNat]

section Words

variable (cpu : Cpu) (next : U32) (symbols : Option Symbols) (inst : DecodedInst32)

/-- The printed upper immediate, shifted back. -/
theorem numeral_upper : numeral (inst.uImm.sshiftRight 12).toInt <<< 12 = inst.uImm := by
  have mask : ∀ i < 12, (0xFFFFF000#32).getLsbD i = false := by decide
  rw [numeral_toInt, DecodedInst32.uImm]
  apply BitVec.eq_of_getLsbD_eq
  intro i bound
  rw [BitVec.getLsbD_shiftLeft, BitVec.getLsbD_sshiftRight]
  by_cases low : i < 12
  · simp [low, BitVec.getLsbD_and, mask i low]
  · have back : 12 + (i - 12) = i := by omega
    have inside : ¬32 ≤ i - 12 := by omega
    simp only [low, back, inside, bound, decide_true, decide_false, Bool.not_false,
      Bool.true_and, if_true]

theorem hex_formatTarget (addr : U32) : ∃ symbol, formatTarget addr symbols = .hex addr symbol := by
  cases symbols with
  | none => exact ⟨none, rfl⟩
  | some syms => exact ⟨syms addr, rfl⟩

theorem decodeJalr_op :
    (decodeJalr inst).op cpu next =
      .write inst.rd next ((cpu.readReg inst.rs1 + inst.iImm) &&& ~~~1) := by
  unfold decodeJalr
  dsimp only
  split
  · rename_i plain
    obtain ⟨rd, rs1, imm⟩ := plain
    rw [rd, rs1, imm]
    rfl
  · split
    · rename_i plain
      obtain ⟨rd, imm⟩ := plain
      rw [rd, imm]
      rfl
    · rw [← addressOf_toInt]
      rfl

theorem decodeBranch_op (known : (decodeBranch cpu.pc symbols inst).mnemonic.Known) :
    (decodeBranch cpu.pc symbols inst).op cpu next =
      .ofResult inst.raw (branchTaken inst.funct3 (cpu.readReg inst.rs1) (cpu.readReg inst.rs2))
        fun take => .goto (if take then cpu.pc + inst.bImm else next) := by
  unfold decodeBranch at known ⊢
  obtain ⟨symbol, target⟩ := hex_formatTarget symbols (cpu.pc + inst.bImm)
  rw [target] at known ⊢
  revert known
  unfold branchMnemonic branchTaken
  generalize inst.funct3 = funct3
  split <;> intro known <;> try (split <;> rename_i zero <;> first | (rw [zero]; rfl) | rfl)
  · rfl
  · rfl
  · exact absurd known (show ¬Mnemonic.unknownBranch.Known by decide)

theorem loadMnemonic_op (known : (loadMnemonic inst.funct3).Known) :
    (Asm.mk (loadMnemonic inst.funct3) [.reg inst.rd, .mem inst.iImm.toInt inst.rs1]).op cpu next =
      .ofResult inst.raw (LoadKind.ofFunct3? inst.funct3) fun kind =>
        .load kind inst.rd (cpu.readReg inst.rs1 + inst.iImm) next := by
  rw [← addressOf_toInt]
  revert known
  unfold loadMnemonic LoadKind.ofFunct3?
  generalize inst.funct3 = funct3
  split <;> intro known <;> try rfl
  exact absurd known (by decide)

theorem storeMnemonic_op (known : (storeMnemonic inst.funct3).Known) :
    (Asm.mk (storeMnemonic inst.funct3) [.reg inst.rs2, .mem inst.sImm.toInt inst.rs1]).op cpu next =
      .ofResult inst.raw (Width.ofFunct3? inst.funct3) fun width =>
        .store width (cpu.readReg inst.rs1 + inst.sImm) (cpu.readReg inst.rs2) next := by
  rw [← addressOf_toInt]
  revert known
  unfold storeMnemonic Width.ofFunct3?
  generalize inst.funct3 = funct3
  split <;> intro known <;> try rfl
  exact absurd known (by decide)

theorem opMnemonic_op (known : (opMnemonic inst.funct7 inst.funct3).Known) :
    (Asm.mk (opMnemonic inst.funct7 inst.funct3) [.reg inst.rd, .reg inst.rs1, .reg inst.rs2]).op
      cpu next =
      if inst.funct7 = 0x01 then inst.mulDivOp cpu next
      else .ofResult inst.raw
        (opValue inst.funct7 inst.funct3 (cpu.readReg inst.rs1) (cpu.readReg inst.rs2))
        fun val => .write inst.rd val next := by
  revert known
  unfold opMnemonic DecodedInst32.mulDivOp
  generalize inst.funct3 = funct3
  generalize inst.funct7 = funct7
  split <;> intro known <;> try rfl
  exact absurd known (by decide)

theorem decodeOpImm_op (raw : U32) (known : (decodeOpImm (.decode raw)).mnemonic.Known) :
    (decodeOpImm (.decode raw)).op cpu next =
      .ofResult raw (opImmValue (DecodedInst32.decode raw).funct3 (DecodedInst32.decode raw).funct7
        (cpu.readReg (DecodedInst32.decode raw).rs1) (DecodedInst32.decode raw).iImm
        ((DecodedInst32.decode raw).rs2.val &&& 0x1F)) fun val =>
          .write (DecodedInst32.decode raw).rd val next := by
  have bare : raw = 0x00000013 → (DecodedInst32.decode raw).rd = 0 ∧
    (DecodedInst32.decode raw).rs1 = 0 ∧
      (DecodedInst32.decode raw).iImm = 0 := by
    rintro rfl
    decide
  have word : (DecodedInst32.decode raw).raw = raw := rfl
  revert known bare word
  generalize DecodedInst32.decode raw = inst
  intro known bare word
  revert known
  unfold decodeOpImm opImmValue
  dsimp only
  generalize inst.funct3 = funct3
  -- the printed immediate is the one the executor adds
  have printed (f : U32 → U32) :
      Op.write inst.rd (f (numeral inst.iImm.toInt)) next = .write inst.rd (f inst.iImm) next := by
    rw [numeral_toInt]
  split <;> intro known
  · split
    · rename_i nop
      obtain ⟨rd, rs1, imm⟩ := bare (word ▸ nop)
      rw [rd, rs1, imm]
      rfl
    · split
      · rename_i zero
        rw [zero]
        exact printed (cpu.readReg 0 + ·)
      · split
        · rename_i zero
          rw [zero]
          rfl
        · exact printed (cpu.readReg inst.rs1 + ·)
  · exact printed fun imm => flag ((cpu.readReg inst.rs1).slt imm)
  · exact congrArg (fun imm => Op.write inst.rd (flag ((cpu.readReg inst.rs1).ult imm)) next)
      (numeral_toNat inst.iImm)
  · exact printed (cpu.readReg inst.rs1 ^^^ ·)
  · exact printed (cpu.readReg inst.rs1 ||| ·)
  · exact printed (cpu.readReg inst.rs1 &&& ·)
  · rfl
  · split <;> rfl
  · exact absurd known (show ¬Mnemonic.opImmUnknown.Known by decide)

theorem decodeSystem_op (raw : U32) (known : (decodeSystem (.decode raw)).mnemonic.Known) :
    (decodeSystem (.decode raw)).op cpu next = (DecodedInst32.decode raw).systemOp cpu next := by
  unfold decodeSystem at known ⊢
  split at known
  · rename_i word
    obtain rfl : raw = _ := word
    rfl
  · split at known
    · rename_i word
      obtain rfl : raw = _ := word
      rfl
    · split at known
      · rename_i word
        obtain rfl : raw = _ := word
        rfl
      · rename_i ecall ebreak mret
        rw [if_neg ecall, if_neg ebreak, if_neg mret]
        clear ecall ebreak mret
        revert known
        unfold DecodedInst32.systemOp csrMnemonic
        generalize DecodedInst32.decode raw = inst
        generalize inst.funct3 = funct3
        split <;> intro known <;> try rfl
        exact absurd known (show ¬Mnemonic.csrOp.Known by decide)

/-- Outside the floating-point accesses, the line means what the executor does. -/
theorem decodeRv32_op (env : Env) (raw : U32)
    (known : (decodeRv32 cpu.pc raw symbols).mnemonic.Known)
    (load : Opcode.ofBits? (DecodedInst32.decode raw).opcode ≠ some .loadFp)
    (store : Opcode.ofBits? (DecodedInst32.decode raw).opcode ≠ some .storeFp) :
    (decodeRv32 cpu.pc raw symbols).op cpu next = (DecodedInst32.decode raw).op env cpu next := by
  have unimpl : ¬Mnemonic.unimpl.Known := by decide
  unfold decodeRv32 at known ⊢
  unfold DecodedInst32.op DecodedInst32.baseOp
  dsimp only at known ⊢
  cases code : Opcode.ofBits? (DecodedInst32.decode raw).opcode with
  | none =>
    rw [code] at known
    exact absurd known unimpl
  | some code' =>
    rw [code] at known
    cases code' with
    | lui => exact congrArg (Op.write _ · next) (numeral_upper (.decode raw))
    | auipc =>
      exact congrArg (fun upper => Op.write _ (cpu.pc + upper) next) (numeral_upper (.decode raw))
    | jal =>
      obtain ⟨symbol, target⟩ := hex_formatTarget symbols (cpu.pc + (DecodedInst32.decode raw).jImm)
      dsimp only
      rw [target]
      split
      · rename_i zero
        rw [zero]
        rfl
      · rfl
    | jalr => exact decodeJalr_op cpu next _
    | branch => exact decodeBranch_op cpu next symbols _ known
    | load => exact loadMnemonic_op cpu next _ known
    | store => exact storeMnemonic_op cpu next _ known
    | imm => exact decodeOpImm_op cpu next raw known
    | op => exact opMnemonic_op cpu next _ known
    | system => exact decodeSystem_op cpu next raw known
    | loadFp => exact absurd code load
    | storeFp => exact absurd code store
    | _ => exact absurd known unimpl

end Words

section Halfwords

variable (cpu : Cpu) (next : U32) (inst : U16)

theorem reserved_unknown : ¬Mnemonic.cReserved.Known := by decide

/-- A halfword immediate, printed unsigned. -/
theorem numeral_half (imm : U16) : numeral imm.toNat = imm.setWidth 32 := by
  rw [numeral, BitVec.ofInt_natCast, BitVec.ofNat_toNat]

theorem widen_ne_zero {imm : U16} (some : imm ≠ 0) : imm.setWidth 32 ≠ (0 : U32) := by
  intro zero
  have values := congrArg BitVec.toNat zero
  rw [BitVec.toNat_setWidth_of_le (by decide)] at values
  exact some (BitVec.eq_of_toNat_eq values)

theorem decodeQuadrant0_op (funct3 : U16) (known : (decodeQuadrant0 inst funct3).mnemonic.Known) :
    (decodeQuadrant0 inst funct3).op cpu next = quadrant0Op inst cpu next (funct3.setWidth 8) := by
  revert known
  unfold decodeQuadrant0
  dsimp only
  split <;> intro known
  · split
    · rename_i zero
      rw [if_pos zero] at known
      exact absurd known reserved_unknown
    · rename_i some
      have written : quadrant0Op inst cpu next 0 =
          .write (creg inst 2) (cpu.readReg 2 + addi4spnImm inst) next :=
            if_neg (widen_ne_zero some)
      exact (congrArg (fun imm => Op.write (creg inst 2) (cpu.readReg 2 + imm) next)
        (numeral_half _)).trans
        written.symm
  · exact congrArg (Op.loadDouble false (creg inst 2) · next) (addressOf_toNat cpu _ _)
  · exact congrArg (Op.load .lw (creg inst 2) · next) (addressOf_toNat cpu _ _)
  · exact congrArg (Op.loadSingle (creg inst 2) · next) (addressOf_toNat cpu _ _)
  · exact congrArg (Op.storeDouble false (cpu.readF64 (creg inst 2)) · next)
      (addressOf_toNat cpu _ _)
  · exact congrArg (Op.store .word · (cpu.readReg (creg inst 2)) next) (addressOf_toNat cpu _ _)
  · exact congrArg (Op.store .word · (lowWord cpu (creg inst 2)) next) (addressOf_toNat cpu _ _)
  · exact absurd known reserved_unknown

theorem decodeLuiGroup_op (known : (decodeLuiGroup inst).mnemonic.Known) :
    (decodeLuiGroup inst).op cpu next = luiGroupOp inst cpu next := by
  unfold decodeLuiGroup at known ⊢
  unfold luiGroupOp
  dsimp only at known ⊢
  split
  · rename_i sp
    rw [if_pos sp] at known
    split
    · rename_i zero
      rw [if_pos zero] at known
      exact absurd known reserved_unknown
    · rename_i some
      have scaled : addi16spImm inst ≠ 0 := some
      rw [if_neg scaled]
      exact congrArg (fun imm => Op.write 2 (cpu.readReg 2 + imm) next) (numeral_toInt _)
  · rename_i other
    rw [if_neg other] at known
    split
    · rename_i zero
      rw [if_pos zero] at known
      exact absurd known reserved_unknown
    · rename_i some
      obtain ⟨rd, imm⟩ := not_or.mp some
      have given : imm6 inst ≠ 0 := imm
      rw [if_pos rd, if_neg given]
      exact congrArg (fun imm : U32 => Op.write (regField16 inst 7) (imm <<< 12) next)
        (numeral_toInt _)

theorem decodeAluGroup_op (known : (decodeAluGroup inst).mnemonic.Known) :
    (decodeAluGroup inst).op cpu next = aluGroupOp inst cpu next := by
  revert known
  unfold decodeAluGroup aluGroupOp
  dsimp only
  generalize shiftThenMask inst 10 0x3 = group
  split
  · intro known
    split <;> rename_i bit
    · rw [if_pos bit] at known
      exact absurd known reserved_unknown
    · rfl
  · intro known
    split <;> rename_i bit
    · rw [if_pos bit] at known
      exact absurd known reserved_unknown
    · rfl
  · intro known
    exact congrArg (fun imm => Op.write (creg inst 7) (cpu.readReg (creg inst 7) &&& imm) next)
      (numeral_toInt _)
  · intro known
    split <;> rename_i bit
    · rw [if_pos bit] at known
      exact absurd known reserved_unknown
    · try simp only [*]
      clear known
      generalize shiftThenMask inst 5 0x3 = operation
      split
      · rfl
      · rfl
      · rfl
      · try simp only [*]
        rfl

theorem cAddi_op (rd : Fin 32) (imm : U32) :
    (Asm.mk .cAddi [.reg rd, .int imm.toInt]).op cpu next =
      if imm ≠ 0 then .write rd (cpu.readReg rd + imm) next else .goto next := by
  have shown (val : Int) : (Asm.mk .cAddi [.reg rd, .int val]).op cpu next =
      if numeral val ≠ 0 then .write rd (cpu.readReg rd + numeral val) next else .goto next := rfl
  rw [shown, numeral_toInt]

theorem decodeQuadrant1_op (funct3 : U16)
    (known : (decodeQuadrant1 cpu.pc inst funct3).mnemonic.Known) :
    (decodeQuadrant1 cpu.pc inst funct3).op cpu next =
      quadrant1Op inst cpu next (funct3.setWidth 8) := by
  revert known
  unfold decodeQuadrant1
  dsimp only
  split <;> intro known
  · split <;> rename_i zero
    · exact (if_neg fun both => both.1 zero).symm
    · refine (cAddi_op cpu next (regField16 inst 7) (signExt6 inst)).trans ?_
      by_cases imm : signExt6 inst = 0
      · exact (if_neg (not_not.mpr imm)).trans (if_neg fun both => both.2 imm).symm
      · exact (if_pos imm).trans (if_pos ⟨zero, imm⟩).symm
  · rfl
  · exact congrArg (Op.write (regField16 inst 7) · next) (numeral_toInt (signExt6 inst))
  · exact decodeLuiGroup_op cpu next inst known
  · exact decodeAluGroup_op cpu next inst known
  · rfl
  · rfl
  · rfl
  · exact absurd known reserved_unknown

theorem decodeJumpGroup_op (known : (decodeJumpGroup inst).mnemonic.Known) :
    (decodeJumpGroup inst).op cpu next = jumpGroupOp inst cpu next := by
  unfold decodeJumpGroup at known ⊢
  unfold jumpGroupOp
  dsimp only at known ⊢
  split <;> rename_i jump
  · rw [if_pos jump] at known
    split <;> rename_i zero
    · rw [if_pos zero] at known
      exact absurd known reserved_unknown
    · rfl
  · by_cases low : shiftThenMask inst 12 1 = 0
    · rw [if_pos low, if_pos ⟨low, fun zero => jump ⟨low, zero⟩⟩]
      rfl
    · have high : ¬(shiftThenMask inst 12 1 = 0 ∧ regField16 inst 2 ≠ 0) := fun both => low both.1
      rw [if_neg low, if_neg high]
      split
      · rfl
      · split <;> rfl

theorem decodeQuadrant2_op (funct3 : U16) (known : (decodeQuadrant2 inst funct3).mnemonic.Known) :
    (decodeQuadrant2 inst funct3).op cpu next = quadrant2Op inst cpu next (funct3.setWidth 8) := by
  revert known
  unfold decodeQuadrant2
  dsimp only
  split <;> intro known
  · split <;> rename_i bit
    · rw [if_pos bit] at known
      exact absurd known reserved_unknown
    · exact (if_neg bit).symm
  · exact congrArg (Op.loadDouble false (regField16 inst 7) · next) (addressOf_toNat cpu _ 2)
  · split <;> rename_i zero
    · rw [if_pos zero] at known
      exact absurd known reserved_unknown
    · have loaded : quadrant2Op inst cpu next 2 =
          .load .lw (regField16 inst 7) (cpu.readReg 2 + ciWordSpOffset inst) next := if_neg zero
      exact (congrArg (Op.load .lw (regField16 inst 7) · next) (addressOf_toNat cpu _ 2)).trans
        loaded.symm
  · exact congrArg (Op.loadSingle (regField16 inst 7) · next) (addressOf_toNat cpu _ 2)
  · exact decodeJumpGroup_op cpu next inst known
  · exact congrArg (Op.storeDouble false (cpu.readF64 (regField16 inst 2)) · next)
      (addressOf_toNat cpu _ 2)
  · exact congrArg (Op.store .word · (cpu.readReg (regField16 inst 2)) next)
      (addressOf_toNat cpu _ 2)
  · exact congrArg (Op.store .word · (lowWord cpu (regField16 inst 2)) next)
      (addressOf_toNat cpu _ 2)
  · exact absurd known reserved_unknown

/-- A compressed line means what the executor does. -/
theorem decodeRvc_op (known : (decodeRvc cpu.pc inst).mnemonic.Known) :
    (decodeRvc cpu.pc inst).op cpu next =
      quadrantOp inst cpu next (DecodedInst16.decode inst).op
        (DecodedInst16.decode inst).funct3 := by
  revert known
  unfold decodeRvc DecodedInst16.decode
  dsimp only
  generalize inst &&& 0x3 = quadrant
  split <;> intro known
  · exact decodeQuadrant0_op cpu next inst _ known
  · exact decodeQuadrant1_op cpu next inst _ known
  · exact decodeQuadrant2_op cpu next inst _ known
  · exact absurd known reserved_unknown

end Halfwords

end RiscvRs
