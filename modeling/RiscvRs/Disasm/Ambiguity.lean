import RiscvRs.Disasm.Accesses
import RiscvRs.Disasm.Meaning

/-! When two instruction words with one text do the same. -/

namespace RiscvRs

section Lines

/-- The two names the floating-point accesses are printed with. -/
def Mnemonic.isFp : Mnemonic → Bool
  | flw | fsw => true
  | _ => false

theorem isFp_branch (funct3 : U8) (rs2 : Fin 32) : (branchMnemonic funct3 rs2).isFp = false := by
  unfold branchMnemonic
  repeat' split
  all_goals rfl

theorem isFp_load (funct3 : U8) : (loadMnemonic funct3).isFp = false := by
  unfold loadMnemonic
  split <;> rfl

theorem isFp_store (funct3 : U8) : (storeMnemonic funct3).isFp = false := by
  unfold storeMnemonic
  split <;> rfl

theorem isFp_op (funct7 funct3 : U8) : (opMnemonic funct7 funct3).isFp = false := by
  unfold opMnemonic
  split <;> rfl

theorem isFp_csr (funct3 : U8) : (csrMnemonic funct3).isFp = false := by
  unfold csrMnemonic
  split <;> rfl

theorem isFp_opImm (inst : DecodedInst32) : (decodeOpImm inst).mnemonic.isFp = false := by
  unfold decodeOpImm
  dsimp only
  repeat' split
  all_goals rfl

theorem isFp_jalr (inst : DecodedInst32) : (decodeJalr inst).mnemonic.isFp = false := by
  unfold decodeJalr
  dsimp only
  repeat' split
  all_goals rfl

theorem isFp_system (inst : DecodedInst32) : (decodeSystem inst).mnemonic.isFp = false := by
  unfold decodeSystem
  repeat' split
  all_goals first | rfl | exact isFp_csr _

/-- Only the floating-point accesses are printed as such. -/
theorem access_of_isFp {address raw : U32} {symbols : Option Symbols}
    (printed : (decodeRv32 address raw symbols).mnemonic.isFp = true) : FpAccess raw := by
  have other {m : Mnemonic} (known : m.isFp = false) (fp : m.isFp = true) : FpAccess raw :=
    absurd (known.symm.trans fp) Bool.noConfusion
  revert printed
  unfold decodeRv32
  dsimp only
  cases code : Opcode.ofBits? (DecodedInst32.decode raw).opcode with
  | none => exact other rfl
  | some code' =>
    cases code' with
    | loadFp => exact fun _ => .inl code
    | storeFp => exact fun _ => .inr code
    | jal =>
      dsimp only
      split <;> exact other rfl
    | jalr => exact other (isFp_jalr _)
    | branch =>
      unfold decodeBranch
      dsimp only
      split <;> exact other (isFp_branch _ _)
    | load => exact other (isFp_load _)
    | store => exact other (isFp_store _)
    | imm => exact other (isFp_opImm _)
    | op => exact other (isFp_op _ _)
    | system => exact other (isFp_system _)
    | _ => exact other rfl

variable {address raw : U32} {symbols : Option Symbols}

theorem load_line (major : Major .loadFp raw) : decodeRv32 address raw symbols =
    ⟨.flw, [.freg (DecodedInst32.decode raw).rd,
      .mem (DecodedInst32.decode raw).iImm.toInt (DecodedInst32.decode raw).rs1]⟩ := by
  rw [decodeRv32, show Opcode.ofBits? _ = _ from major]

theorem store_line (major : Major .storeFp raw) : decodeRv32 address raw symbols =
    ⟨.fsw, [.freg (DecodedInst32.decode raw).rs2,
      .mem (DecodedInst32.decode raw).sImm.toInt (DecodedInst32.decode raw).rs1]⟩ := by
  rw [decodeRv32, show Opcode.ofBits? _ = _ from major]

variable {word word' : U32}

/-- Loads with one line have their fields in common. -/
theorem load_fields (major : Major .loadFp word)
    (same : decodeRv32 address word none = decodeRv32 address word' none) :
    Major .loadFp word' ∧ (DecodedInst32.decode word).rd = (DecodedInst32.decode word').rd ∧
      (DecodedInst32.decode word).iImm = (DecodedInst32.decode word').iImm ∧
      (DecodedInst32.decode word).rs1 = (DecodedInst32.decode word').rs1 := by
  rw [load_line major] at same
  have printed : (decodeRv32 address word' none).mnemonic.isFp = true := by
    rw [← same]
    rfl
  rcases access_of_isFp printed with major' | major'
  · rw [load_line major'] at same
    simp only [Asm.mk.injEq, List.cons.injEq, Operand.freg.injEq, Operand.mem.injEq,
      BitVec.toInt_inj,
      and_true, true_and] at same
    exact ⟨major', same.1, same.2.1, same.2.2⟩
  · rw [store_line major'] at same
    cases congrArg Asm.mnemonic same

theorem store_fields (major : Major .storeFp word)
    (same : decodeRv32 address word none = decodeRv32 address word' none) :
    Major .storeFp word' ∧ (DecodedInst32.decode word).rs2 = (DecodedInst32.decode word').rs2 ∧
      (DecodedInst32.decode word).sImm = (DecodedInst32.decode word').sImm ∧
      (DecodedInst32.decode word).rs1 = (DecodedInst32.decode word').rs1 := by
  rw [store_line major] at same
  have printed : (decodeRv32 address word' none).mnemonic.isFp = true := by
    rw [← same]
    rfl
  rcases access_of_isFp printed with major' | major'
  · rw [load_line major'] at same
    cases congrArg Asm.mnemonic same
  · rw [store_line major'] at same
    simp only [Asm.mk.injEq, List.cons.injEq, Operand.freg.injEq, Operand.mem.injEq,
      BitVec.toInt_inj,
      and_true, true_and] at same
    exact ⟨major', same.1, same.2.1, same.2.2⟩

/-- Accesses of one line and one width are one word. -/
theorem access_word_eq (access : FpAccess word)
    (same : decodeRv32 address word none = decodeRv32 address word' none)
    (funct3 : (DecodedInst32.decode word).funct3 = (DecodedInst32.decode word').funct3) :
    word = word' := by
  rcases access with major | major
  · obtain ⟨major', rd, imm, rs1⟩ := load_fields major same
    exact load_word_eq major major' rd funct3 rs1 imm
  · obtain ⟨major', rs2, imm, rs1⟩ := store_fields major same
    exact store_word_eq major major' rs2 funct3 rs1 imm

theorem access_of_line (access : FpAccess word)
    (same : decodeRv32 address word none = decodeRv32 address word' none) : FpAccess word' := by
  rcases access with major | major
  · exact .inl (load_fields major same).1
  · exact .inr (store_fields major same).1

/-- The widths the executor knows. -/
def KnownWidth (word : U32) : Prop :=
  (DecodedInst32.decode word).funct3 = 2 ∨ (DecodedInst32.decode word).funct3 = 3

/-- The probe whose base undoes the offset: a store goes to address zero, or is relative to `zero`. -/
theorem second_in_ram (address : U32) (major : Major .storeFp word) (known : KnownWidth word)
    (outside : ¬DeviceStore word) :
    ((probe address (0 - (DecodedInst32.decode word).sImm)).cpu.readReg
      (DecodedInst32.decode word).rs1 +
      (DecodedInst32.decode word).sImm + 4).toNat < 0xFFFF0000 := by
  have range := sImm_range word
  by_cases zero : (DecodedInst32.decode word).rs1 = 0
  · have base : (probe address (0 - (DecodedInst32.decode word).sImm)).cpu.readReg
      (DecodedInst32.decode word).rs1 +
        (DecodedInst32.decode word).sImm = (DecodedInst32.decode word).sImm := by
      rw [zero]
      exact BitVec.zero_add _
    rw [base]
    by_contra high
    have second : mmioBase ≤ (DecodedInst32.decode word).sImm + 4 :=
      (mmioBase_le_iff _).mpr (by omega)
    have sum : ((DecodedInst32.decode word).sImm + 4).toNat =
        ((DecodedInst32.decode word).sImm.toNat + 4) % 2 ^ 32 := BitVec.toNat_add _ 4
    have first : mmioBase ≤ (DecodedInst32.decode word).sImm := (mmioBase_le_iff _).mpr (by omega)
    exact outside ⟨major, known, zero, first, second⟩
  · have base : (probe address (0 - (DecodedInst32.decode word).sImm)).cpu.readReg
      (DecodedInst32.decode word).rs1 +
        (DecodedInst32.decode word).sImm = 0 := by
      rw [Cpu.readReg, if_neg zero]
      exact BitVec.sub_add_cancel 0 _
    rw [base]
    decide

/-- Loads that look alike have the same width. -/
theorem load_width_eq (env : Env) (m : Machine) (major : Major .loadFp word)
    (same : decodeRv32 address word none = decodeRv32 address word' none) (known : KnownWidth word)
    (known' : KnownWidth word')
    (alike : (Fetched.word word).seen env m = (Fetched.word word').seen env m) :
    (DecodedInst32.decode word).funct3 = (DecodedInst32.decode word').funct3 := by
  obtain ⟨major', rd, -⟩ := load_fields major same
  rcases known with single | double <;> rcases known' with single' | double'
  · rw [single, single']
  · exact absurd alike (loads_differ env m major major' rd single double')
  · exact absurd alike.symm (loads_differ env m major' major rd.symm single' double)
  · rw [double, double']

/-- Stores that look alike have the same width, or reach only devices. -/
theorem store_width_eq (env : Env) (major : Major .storeFp word)
    (same : decodeRv32 address word none = decodeRv32 address word' none) (known : KnownWidth word)
    (known' : KnownWidth word')
    (all : ∀ m : Machine, m.cpu.pc = address →
      (Fetched.word word).seen env m = (Fetched.word word').seen env m) :
    (DecodedInst32.decode word).funct3 = (DecodedInst32.decode word').funct3 ∨
      DeviceStore word ∧ DeviceStore word' := by
  obtain ⟨major', -, imm, rs1⟩ := store_fields major same
  by_cases inside : DeviceStore word
  · right
    refine ⟨inside, major', known', ?_⟩
    rw [← imm, ← rs1]
    exact inside.2.2
  · left
    have ram := second_in_ram address major known inside
    have alike := all (probe address (0 - (DecodedInst32.decode word).sImm)) rfl
    rcases known with single | double <;> rcases known' with single' | double'
    · rw [single, single']
    · exact absurd alike (stores_differ env address _ major major' rs1 imm single double' ram)
    · rw [rs1, imm] at ram
      rw [imm] at alike
      exact absurd alike.symm
        (stores_differ env address _ major' major rs1.symm imm.symm single' double ram)
    · rw [double, double']

/-- Accesses that look alike in every state have the same width, or reach only devices. -/
theorem access_width_eq (env : Env) (access : FpAccess word)
    (same : decodeRv32 address word none = decodeRv32 address word' none)
    (all : ∀ m : Machine, m.cpu.pc = address →
      (Fetched.word word).seen env m = (Fetched.word word').seen env m) :
    (DecodedInst32.decode word).funct3 = (DecodedInst32.decode word').funct3 ∨
      DeviceStore word ∧ DeviceStore word' := by
  have access' := access_of_line access same
  have here := all (probe address 0) rfl
  by_cases known : KnownWidth word
  · by_cases known' : KnownWidth word'
    · rcases access with major | major
      · exact .inl (load_width_eq env _ major same known known' here)
      · exact store_width_eq env major same known known' all
    · obtain ⟨single', double'⟩ := not_or.mp known'
      rw [seen_reserved env _ access' single' double'] at here
      exact absurd here (seen_legal env _ _ rfl access known _)
  · obtain ⟨single, double⟩ := not_or.mp known
    rw [seen_reserved env _ access single double] at here
    by_cases known' : KnownWidth word'
    · exact absurd here.symm (seen_legal env _ _ rfl access' known' _)
    · obtain ⟨single', double'⟩ := not_or.mp known'
      rw [seen_reserved env _ access' single' double'] at here
      -- the trap carries the word
      injection here with errors
      injection errors with _ words
      rw [words]
      exact .inl rfl

end Lines

section Texts

variable {address word : U32}

theorem asmText_half (compressed : word &&& 0x3 ≠ 0x3) :
    (decodeInstruction address word).asmText =
      (decodeRvc address ((word &&& 0xFFFF).setWidth 16)).text :=
  if_pos compressed

theorem asmText_word (full : ¬(word &&& 0x3 ≠ 0x3)) :
    (decodeInstruction address word).asmText = (decodeRv32 address word none).text :=
  if_neg full

/-- Compressed words with one text do the same. -/
theorem seen_half {inst inst' : U16}
    (same : (decodeRvc address inst).text = (decodeRvc address inst').text)
    (known : isPlaceholder (decodeRvc address inst).text = false) (env : Env) (m : Machine)
    (here : m.cpu.pc = address) :
    (Fetched.half inst).seen env m = (Fetched.half inst').seen env m := by
  have plain := Asm.known_of_text known
  have plain' := Asm.known_of_text (same ▸ known)
  have lines : decodeRvc address inst = decodeRvc address inst' :=
    Asm.text_inj (decodeRvc_plain address inst plain) (decodeRvc_plain address inst' plain') same
  subst here
  have ops : (Fetched.half inst).op env m.cpu = (Fetched.half inst').op env m.cpu := by
    rw [Fetched.op, Fetched.op, ← decodeRvc_op m.cpu _ inst plain,
      ← decodeRvc_op m.cpu _ inst' plain', lines]
  rw [Fetched.seen_eq, Fetched.seen_eq, ops]

/-- So do full words that are not floating-point accesses. -/
theorem seen_word {word' : U32}
    (lines : decodeRv32 address word none = decodeRv32 address word' none)
    (plain : (decodeRv32 address word none).mnemonic.Known) (other : ¬FpAccess word) (env : Env)
    (m : Machine)
    (here : m.cpu.pc = address) :
    (Fetched.word word).seen env m = (Fetched.word word').seen env m := by
  have other' : ¬FpAccess word' := fun access => other (access_of_line access lines.symm)
  obtain ⟨load, store⟩ := not_or.mp other
  obtain ⟨load', store'⟩ := not_or.mp other'
  subst here
  have ops : (Fetched.word word).op env m.cpu = (Fetched.word word').op env m.cpu := by
    rw [Fetched.op, Fetched.op, ← decodeRv32_op m.cpu _ none env word plain load store,
      ← decodeRv32_op m.cpu _ none env word' (lines ▸ plain) load' store', lines]
  rw [Fetched.seen_eq, Fetched.seen_eq, ops]

/-- Full words with one line. -/
theorem same_effect_word_iff {word' : U32}
    (lines : decodeRv32 address word none = decodeRv32 address word' none)
    (plain : (decodeRv32 address word none).mnemonic.Known) (env : Env) :
    (∀ m : Machine, m.cpu.pc = address →
      (Fetched.word word).seen env m = (Fetched.word word').seen env m) ↔
    (FpAccess word →
      (DecodedInst32.decode word).funct3 = (DecodedInst32.decode word').funct3 ∨
      DeviceStore word ∧ DeviceStore word') := by
  by_cases access : FpAccess word
  · constructor
    · intro all _
      exact access_width_eq env access lines all
    · intro agree m _
      rcases agree access with funct3 | ⟨device, device'⟩
      · rw [access_word_eq access lines funct3]
      · rw [seen_deviceStore env m _ rfl device, seen_deviceStore env m _ rfl device']
  · refine iff_of_true ?_ (fun reached => absurd reached access)
    intro m here
    exact seen_word lines plain access env m here

/-- Two words of one length and one text that is not a placeholder do the same from every
state at their address, unless they are floating-point accesses of different widths: the
listing prints every width of these as `flw` or `fsw`. Even then they do the same where
both only reach devices. -/
theorem same_text_same_effect_iff (env : Env) (address word word' : U32)
    (length : (decodeInstruction address word).isCompressed =
      (decodeInstruction address word').isCompressed)
    (same : (decodeInstruction address word).asmText = (decodeInstruction address word').asmText)
    (known : isPlaceholder (decodeInstruction address word).asmText = false) :
    (∀ m : Machine, m.cpu.pc = address →
      (Fetched.ofWord word).seen env m = (Fetched.ofWord word').seen env m) ↔
    (FpAccess word →
      (DecodedInst32.decode word).funct3 = (DecodedInst32.decode word').funct3 ∨
      DeviceStore word ∧ DeviceStore word') := by
  have lengths : word &&& 0x3 ≠ 0x3 ↔ word' &&& 0x3 ≠ 0x3 := decide_eq_decide.mp length
  by_cases compressed : word &&& 0x3 ≠ 0x3
  · have compressed' := lengths.mp compressed
    rw [asmText_half compressed, asmText_half compressed'] at same
    rw [asmText_half compressed] at known
    have half : Fetched.ofWord word = .half ((word &&& 0xFFFF).setWidth 16) := if_pos compressed
    have half' : Fetched.ofWord word' = .half ((word' &&& 0xFFFF).setWidth 16) := if_pos compressed'
    refine iff_of_true ?_ ?_
    · intro m here
      rw [half, half']
      exact seen_half same known env m here
    · intro access
      have full : Fetched.ofWord word = .word word := access.elim Major.ofWord Major.ofWord
      cases half.symm.trans full
  · have full' : ¬(word' &&& 0x3 ≠ 0x3) := fun compressed' => compressed (lengths.mpr compressed')
    rw [asmText_word compressed, asmText_word full'] at same
    rw [asmText_word compressed] at known
    have plain := Asm.known_of_text known
    have lines : decodeRv32 address word none = decodeRv32 address word' none :=
      Asm.text_inj (decodeRv32_plain address word plain)
        (decodeRv32_plain address word' (Asm.known_of_text (same ▸ known))) same
    have whole : Fetched.ofWord word = .word word := if_neg compressed
    have whole' : Fetched.ofWord word' = .word word' := if_neg full'
    rw [whole, whole']
    exact same_effect_word_iff lines plain env

/-- `c.nop` is the text of every halfword that adds to `zero`. -/
theorem same_text_same_effect_iff_nop :
    (Fetched.ofWord 0x0001).seen default (probe 0x1000 7) =
      (Fetched.ofWord 0x0005).seen default (probe 0x1000 7) := by
  refine (same_text_same_effect_iff default 0x1000 0x0001 0x0005 (by decide) (by decide +kernel)
    (by decide +kernel)).mpr ?_ _ rfl
  rintro (load | store)
  · cases load
  · cases store

/-- `fld fa0, 0(a0)` is printed as `flw fa0, 0(a0)`. -/
theorem flw_text_hides_fld :
    (decodeInstruction 0x1000 0x00052507).isCompressed =
      (decodeInstruction 0x1000 0x00053507).isCompressed ∧
    (decodeInstruction 0x1000 0x00052507).asmText = (decodeInstruction 0x1000 0x00053507).asmText ∧
    isPlaceholder (decodeInstruction 0x1000 0x00052507).asmText = false ∧
    ∃ m : Machine, m.cpu.pc = 0x1000 ∧
      (Fetched.ofWord 0x00052507).seen default m ≠ (Fetched.ofWord 0x00053507).seen default m := by
  refine ⟨by decide, by decide +kernel, by decide +kernel, probe 0x1000 0x2000, rfl, ?_⟩
  exact loads_differ default _ rfl rfl rfl rfl rfl

end Texts

end RiscvRs
