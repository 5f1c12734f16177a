import RiscvRs.Disasm.Meaning
import RiscvRs.Session.Stepping

/-! Printed jump targets: the address a listing shows is where the processor goes. -/

namespace RiscvRs

open Effects Prog Text

/-- The first number of a text is `target`: its hexadecimal form, and behind it nothing or
the symbol that stands there. -/
def Prints (symbols : Option Symbols) (text : String) (target : U32) : Prop :=
  ∃ front back, text = front ++ hexPadded 1 target.toNat ++ back ∧ 'x' ∉ front.toList ∧
    (back = "" ∨ ∃ syms name, symbols = some syms ∧ syms target = some name ∧
      back = " <" ++ name ++ ">")

/-- When a conditional branch is taken. -/
def TakesBranch (funct3 : U8) (a b : U32) : Prop :=
  match funct3 with
  | 0 => a = b
  | 1 => a ≠ b
  | 4 => a.toInt < b.toInt
  | 5 => b.toInt ≤ a.toInt
  | 6 => a.toNat < b.toNat
  | 7 => b.toNat ≤ a.toNat
  | _ => False

/-- A direct jump, or a conditional branch that is taken. -/
def Fetched.Taken (cpu : Cpu) : Fetched → Prop
  | word raw =>
    let inst := DecodedInst32.decode raw
    inst.opcode = Opcode.jal.bits ∨
      inst.opcode = Opcode.branch.bits ∧
        TakesBranch inst.funct3 (cpu.readReg inst.rs1) (cpu.readReg inst.rs2)
  | half inst =>
    let decoded := DecodedInst16.decode inst
    decoded.op = 1 ∧ (decoded.funct3 = 1 ∨ decoded.funct3 = 5 ∨
      decoded.funct3 = 6 ∧ cpu.readReg (creg inst 7) = 0 ∨ decoded.funct3 = 7 ∧
        cpu.readReg (creg inst 7) ≠ 0)

section Printing

theorem toList_hexPadded (val : Nat) :
    (hexPadded 1 val).toList = ['0'] ++ 'x' :: Nat.toDigits 16 val :=
  toList_hexPadded_one val

/-- A text with a number ends its digits at a blank or at its end. -/
theorem Prints.toList {symbols : Option Symbols} {text : String} {target : U32}
    (prints : Prints symbols text target) :
    ∃ front back, text.toList = front ++ 'x' :: (Nat.toDigits 16 target.toNat ++ back) ∧ 'x' ∉ front ∧
      back.takeWhile (· ∈ hexChars) = [] := by
  obtain ⟨front, back, rfl, clear, ending⟩ := prints
  refine ⟨front.toList ++ ['0'], back.toList, ?_, ?_, ?_⟩
  · rw [String.toList_append, String.toList_append, toList_hexPadded]
    simp
  · simp [clear]
  · rcases ending with rfl | ⟨syms, name, -, -, rfl⟩
    · rfl
    · rw [String.toList_append, String.toList_append]
      rfl

/-- Two readings of one text agree. -/
theorem Prints.unique {symbols symbols' : Option Symbols} {text : String} {target target' : U32}
    (prints : Prints symbols text target) (prints' : Prints symbols' text target') :
    target = target' := by
  obtain ⟨front, back, split, clear, stop⟩ := prints.toList
  obtain ⟨front', back', split', clear', stop'⟩ := prints'.toList
  obtain ⟨-, same⟩ := front_inj clear clear' (split.symm.trans split')
  have digits (val : Nat) {rest : List Char} (stop : rest.takeWhile (· ∈ hexChars) = []) :
      (Nat.toDigits 16 val ++ rest).takeWhile (· ∈ hexChars) = Nat.toDigits 16 val := by
    rw [List.takeWhile_append_of_pos fun c member => decide_eq_true (mem_hexDigits member), stop,
      List.append_nil]
  have values := congrArg (List.takeWhile (· ∈ hexChars)) same
  rw [digits _ stop, digits _ stop'] at values
  exact BitVec.eq_of_toNat_eq (hexDigits_inj values)

theorem Prints.of_none {text : String} {target : U32} (prints : Prints none text target)
    (symbols : Option Symbols) : Prints symbols text target := by
  obtain ⟨front, back, split, clear, rfl | ⟨syms, name, none, -⟩⟩ := prints
  · exact ⟨front, "", split, clear, .inl rfl⟩
  · cases none

theorem text_formatTarget (symbols : Option Symbols) (target : U32) :
    ∃ back, (formatTarget target symbols).text = hexPadded 1 target.toNat ++ back ∧
      (back = "" ∨ ∃ syms name, symbols = some syms ∧ syms target = some name ∧
        back = " <" ++ name ++ ">") := by
  unfold formatTarget
  cases symbols with
  | none => exact ⟨"", String.append_empty.symm, .inl rfl⟩
  | some syms =>
    dsimp only
    cases found : syms target with
    | none => exact ⟨"", String.append_empty.symm, .inl rfl⟩
    | some name =>
      exact ⟨_, by simp only [Operand.text, String.append_assoc], .inr ⟨syms, name, rfl, found, rfl⟩⟩

/-- A line that ends in a target, behind registers. -/
theorem prints_line (symbols : Option Symbols) {m : Mnemonic} (plain : 'x' ∉ m.text.toList)
    (regs : List (Fin 32))
    (target : U32) :
    Prints symbols (Asm.mk m (regs.map .reg ++ [formatTarget target symbols])).text target := by
  obtain ⟨front, split, clear⟩ :=
    items_snoc ((regs.map Operand.reg).map Operand.text) (formatTarget target symbols).text
  obtain ⟨back, text, ending⟩ := text_formatTarget symbols target
  have line : (Asm.mk m (regs.map .reg ++ [formatTarget target symbols])).text =
      m.text ++ " " ++ front ++ hexPadded 1 target.toNat ++ back := by
    rw [Asm.text, List.map_append, List.map_singleton, Text.line, if_neg (by simp), split, text]
    simp only [String.append_assoc]
  refine ⟨m.text ++ " " ++ front, back, line, ?_, ending⟩
  simp only [String.toList_append, List.mem_append, not_or]
  refine ⟨⟨plain, by decide⟩, ?_⟩
  intro mark
  rcases clear 'x' mark with comma | blank | ⟨part, member, inside⟩
  · cases comma
  · cases blank
  · obtain ⟨operand, listed, rfl⟩ := List.mem_map.mp member
    obtain ⟨r, -, rfl⟩ := List.mem_map.mp listed
    exact (isName_regName r).2.2.1 inside

end Printing

section Moves

variable {env : Env} {m : Machine} {inst : Fetched}

theorem goes_goto {target : U32} (op : inst.op env m.cpu = .goto target) :
    ∃ m', (inst.execute env).run m = .ok () m' ∧ m'.cpu.pc = target := by
  rw [Fetched.execute_run, op]
  exact ⟨_, rfl, rfl⟩

theorem goes_write {rd : Fin 32} {val target : U32}
    (op : inst.op env m.cpu = .write rd val target) :
    ∃ m', (inst.execute env).run m = .ok () m' ∧ m'.cpu.pc = target := by
  rw [Fetched.execute_run, op]
  exact ⟨_, rfl, rfl⟩

/-- A taken branch in the executor's words. -/
theorem branchTaken_of {funct3 : U8} {a b : U32} (taken : TakesBranch funct3 a b) :
    branchTaken funct3 a b = some true := by
  unfold TakesBranch at taken
  unfold branchTaken
  split at taken
  · simp [taken]
  · simp [taken]
  · simp [BitVec.slt, taken]
  · simp [BitVec.sle, taken]
  · simp [BitVec.ult, taken]
  · simp [BitVec.ule, taken]
  · exact taken.elim

theorem prints_branch (symbols : Option Symbols) (address : U32) (inst : DecodedInst32) :
    Prints symbols (decodeBranch address symbols inst).text (address + inst.bImm) := by
  have plain : 'x' ∉ (branchMnemonic inst.funct3 inst.rs2).text.toList := by
    unfold branchMnemonic
    split <;> (try split) <;> decide
  unfold decodeBranch
  dsimp only
  split
  · exact prints_line symbols plain [inst.rs1] _
  · exact prints_line symbols plain [inst.rs1, inst.rs2] _

/-- Full words. -/
theorem word_prints {raw : U32} (symbols : Option Symbols)
    (taken : (Fetched.word raw).Taken m.cpu) :
    ∃ m', ((Fetched.word raw).execute env).run m = .ok () m' ∧
      Prints symbols (decodeRv32 m.cpu.pc raw symbols).text m'.cpu.pc := by
  rcases taken with jump | ⟨branch, takes⟩
  · have op : (Fetched.word raw).op env m.cpu =
        .write (DecodedInst32.decode raw).rd (m.cpu.pc + 4)
          (m.cpu.pc + (DecodedInst32.decode raw).jImm) := by
      rw [Fetched.op, DecodedInst32.op, DecodedInst32.baseOp, jump, Opcode.ofBits?_bits]
    obtain ⟨m', run, pc⟩ := goes_write op
    refine ⟨m', run, ?_⟩
    rw [pc, decodeRv32, jump, Opcode.ofBits?_bits]
    dsimp only
    split
    · exact prints_line symbols (by decide) [] _
    · exact prints_line symbols (by decide) [_] _
  · have op : (Fetched.word raw).op env m.cpu = .goto
      (m.cpu.pc + (DecodedInst32.decode raw).bImm) := by
      rw [Fetched.op, DecodedInst32.op, DecodedInst32.baseOp, branch, Opcode.ofBits?_bits]
      dsimp only
      rw [branchTaken_of takes]
      rfl
    obtain ⟨m', run, pc⟩ := goes_goto op
    refine ⟨m', run, ?_⟩
    rw [pc, decodeRv32, branch, Opcode.ofBits?_bits]
    exact prints_branch symbols m.cpu.pc _

/-- A narrowed field is the field. -/
theorem narrow_inj {x : U16} (small : x.toNat < 256) {k : Nat} (bound : k < 256)
    (narrow : x.setWidth 8 = BitVec.ofNat 8 k) : x = BitVec.ofNat 16 k := by
  apply BitVec.eq_of_toNat_eq
  have values := congrArg BitVec.toNat narrow
  rw [BitVec.toNat_setWidth, BitVec.toNat_ofNat] at values
  rw [BitVec.toNat_ofNat]
  omega

/-- Compressed words. -/
theorem half_prints {c : U16} (taken : (Fetched.half c).Taken m.cpu) :
    ∃ m', ((Fetched.half c).execute env).run m = .ok () m' ∧
      Prints none (decodeRvc m.cpu.pc c).text m'.cpu.pc := by
  obtain ⟨quadrant, minor⟩ := taken
  have minorBound : (shiftThenMask c 13 0x7).toNat < 256 := (mask_lt _ _).trans_lt (by decide)
  have quadrantBound : (c &&& 0x3).toNat < 256 := (mask_lt _ _).trans_lt (by decide)
  have line {k : Nat} (small : k < 256)
    (field : (DecodedInst16.decode c).funct3 = BitVec.ofNat 8 k) :
      decodeRvc m.cpu.pc c = decodeQuadrant1 m.cpu.pc c (BitVec.ofNat 16 k) := by
    rw [decodeRvc, narrow_inj minorBound small field,
      narrow_inj quadrantBound (k := 1) (by decide) quadrant]
    rfl
  have op {k : Nat} (field : (DecodedInst16.decode c).funct3 = BitVec.ofNat 8 k) :
      (Fetched.half c).op env m.cpu = quadrant1Op c m.cpu (m.cpu.pc + 2) (BitVec.ofNat 8 k) := by
    rw [Fetched.op, quadrant, field]
    rfl
  rcases minor with field | field | ⟨field, zero⟩ | ⟨field, nonzero⟩
  · obtain ⟨m', run, pc⟩ := goes_write (op (k := 1) field)
    refine ⟨m', run, ?_⟩
    rw [line (k := 1) (by decide) field, pc]
    exact prints_line none (m := .cJal) (by decide) [] _
  · obtain ⟨m', run, pc⟩ := goes_goto (op (k := 5) field)
    refine ⟨m', run, ?_⟩
    rw [line (k := 5) (by decide) field, pc]
    exact prints_line none (m := .cJ) (by decide) [] _
  · obtain ⟨m', run, pc⟩ := goes_goto (op (k := 6) field)
    refine ⟨m', run, ?_⟩
    rw [line (k := 6) (by decide) field, pc, if_pos zero]
    exact prints_line none (m := .cBeqz) (by decide) [_] _
  · obtain ⟨m', run, pc⟩ := goes_goto (op (k := 7) field)
    refine ⟨m', run, ?_⟩
    rw [line (k := 7) (by decide) field, pc, if_pos nonzero]
    exact prints_line none (m := .cBnez) (by decide) [_] _

/-- The target address a listing prints for a jump or a conditional branch is the `pc` after the
instruction, from every state that stands at that address and takes the branch. -/
theorem printed_target_reached (env : Env) (address w : U32) (symbols : Option Symbols) (m : Machine)
    (here : m.cpu.pc = address) (taken : (Fetched.ofWindow w).Taken m.cpu) :
    ∃ m', ((Fetched.ofWindow w).execute env).run m = .ok () m' ∧
      Prints symbols (decodeInstructionWithSymbols address w symbols).asmText m'.cpu.pc := by
  subst here
  unfold Fetched.ofWindow at *
  by_cases wide : w &&& 0x3 = 0x3
  · have text : (decodeInstructionWithSymbols m.cpu.pc w symbols).asmText =
      (decodeRv32 m.cpu.pc w symbols).text :=
      if_neg (not_not.mpr wide)
    rw [if_pos wide] at taken ⊢
    rw [text]
    exact word_prints symbols taken
  · have low : (w &&& 0xFFFF).setWidth 16 = w.setWidth 16 := by
      apply BitVec.eq_of_toNat_eq
      have mask : w.toNat &&& 2 ^ 16 - 1 = w.toNat % 2 ^ 16 :=
        Nat.and_two_pow_sub_one_eq_mod w.toNat 16
      have kept : (w &&& 0xFFFF).toNat = w.toNat % 2 ^ 16 := (BitVec.toNat_and w _).trans mask
      rw [BitVec.toNat_setWidth, BitVec.toNat_setWidth, kept, Nat.mod_mod]
    have text : (decodeInstructionWithSymbols m.cpu.pc w symbols).asmText =
        (decodeRvc m.cpu.pc (w.setWidth 16)).text := by
      rw [← low]
      exact if_pos wide
    rw [if_neg wide] at taken ⊢
    rw [text]
    obtain ⟨m', run, prints⟩ := half_prints taken
    exact ⟨m', run, prints.of_none symbols⟩

/-- `j -16` at address 8: the target wraps around to 0xFFFFFFF8. -/
theorem printed_target_reached_wrapping :
    ∃ m', ((Fetched.ofWindow 0xFF1FF06F).execute default).run
        { Machine.new with cpu := { Cpu.new with pc := 8 } } = .ok () m' ∧
      Prints none (decodeInstructionWithSymbols 8 0xFF1FF06F none).asmText m'.cpu.pc :=
  printed_target_reached default 8 0xFF1FF06F none
    { Machine.new with cpu := { Cpu.new with pc := 8 } } rfl (.inl rfl)

end Moves

end RiscvRs
