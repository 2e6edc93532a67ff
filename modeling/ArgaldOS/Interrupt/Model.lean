import ArgaldOS.Framework.Runs
import ArgaldOS.Memory

/-! # Exception entry (`arch/x64/interrupt.asm`, `kernel/panic.h`)

    An exception reaches C code in three steps: the processor pushes the
    interrupted state, the stub of the vector pushes an error code (unless the
    processor did) and the vector number, and `baseHandler` pushes the
    registers and calls `exceptionHandler`, which finds all of it as a structure
    passed by value.

    The model has the instructions that these routines use.  Memory is the
    memory that the stack pointer addresses.  Arithmetic flags are not tracked:
    nothing reads them before `iretq` loads the flags anew.
-/

namespace ArgaldOS

/-! ## Section 1: The processor -/

/-- General-purpose registers. -/
inductive Reg where
  | rax | rbx | rcx | rdx | rsi | rdi | rbp | rsp
  | r8 | r9 | r10 | r11 | r12 | r13 | r14 | r15
  deriving DecidableEq

/-- Registers and memory.  `rip` and `rflags` are those of the code that the
    exception interrupts. -/
structure Cpu where
  reg    : Reg → UInt64
  rip    : UInt64
  cs     : UInt16
  rflags : UInt64
  ss     : UInt16
  cr2    : UInt64
  mem    : Mem

namespace Cpu

/-- `r = v`. -/
def set (c : Cpu) (r : Reg) (v : UInt64) : Cpu := { c with reg := Function.update c.reg r v }

/-- The word at the top of the stack. -/
def top (c : Cpu) : UInt64 := c.mem.load64 (c.reg .rsp)

/-- Push a word. -/
def push (c : Cpu) (v : UInt64) : Cpu :=
  { c.set .rsp (c.reg .rsp - 8) with mem := c.mem.store64 (c.reg .rsp - 8) v }

/-- Pop a word into `r`. -/
def pop (c : Cpu) (r : Reg) : Cpu := (c.set .rsp (c.reg .rsp + 8)).set r c.top

end Cpu

/-- The instructions of `interrupt.asm`.  A jump to `baseHandler` is written as
    the code that follows. -/
inductive Instr where
  | push_imm (v : UInt64)
  | push (r : Reg)
  | pop (r : Reg)
  | mov_cr2 (r : Reg)
  | mov (dst src : Reg)
  | add_rsp (n : UInt64)
  | cld

/-- One instruction. -/
def Instr.step (c : Cpu) : Instr → Cpu
  | .push_imm v => c.push v
  -- The old value of the register, also for `rsp`.
  | .push r => c.push (c.reg r)
  | .pop r => c.pop r
  | .mov_cr2 r => c.set r c.cr2
  | .mov dst src => c.set dst (c.reg src)
  | .add_rsp n => c.set .rsp (c.reg .rsp + n)
  -- The direction flag is one of the flags that are not tracked.
  | .cld => c

/-- A sequence of instructions. -/
def execute (code : List Instr) (c : Cpu) : Cpu := Runs.run Instr.step c code

@[simp] theorem execute_nil (c : Cpu) : execute [] c = c := rfl

@[simp] theorem execute_cons (i : Instr) (code : List Instr) (c : Cpu) :
    execute (i :: code) c = execute code (i.step c) := rfl

theorem execute_append (code code' : List Instr) (c : Cpu) :
    execute (code ++ code') c = execute code' (execute code c) :=
  Runs.run_append Instr.step c code code'

/-- `iretq`: the interrupted state is popped, the stack pointer last but one. -/
def iretq (c : Cpu) : Cpu :=
  let sp := c.reg .rsp
  { c.set .rsp (c.mem.load64 (sp + 24)) with
    rip    := c.mem.load64 sp
    cs     := (c.mem.load64 (sp + 8)).toUInt16
    rflags := c.mem.load64 (sp + 16)
    ss     := (c.mem.load64 (sp + 32)).toUInt16 }

/-- The exceptions with an error code. -/
def pushesErrorCode (vector : UInt64) : Bool :=
  vector == 8 || (10 ≤ vector && vector ≤ 14) || vector == 17

/-- What the processor does: it continues on a stack of its choice (for code of
    the kernel, its own), and pushes the interrupted state there. -/
def raise (c : Cpu) (vector errorCode stack : UInt64) : Cpu :=
  -- `ss` and `rsp` are pushed in any case, in long mode.
  let pushed := ((((c.set .rsp stack).push c.ss.toUInt64).push (c.reg .rsp)).push c.rflags).push
    c.cs.toUInt64 |>.push c.rip
  if pushesErrorCode vector then pushed.push errorCode else pushed

/-! ## Section 2: Stubs -/

/-- A stub pushes constants and jumps to `baseHandler`. -/
def stub (constants : List UInt64) : List Instr := constants.map .push_imm

def divideException : List Instr := stub [0, 0]
def debugException : List Instr := stub [0, 1]
def breakpointException : List Instr := stub [0, 3]
def overflowException : List Instr := stub [0, 4]
def boundRangeExceededException : List Instr := stub [0, 5]
def invalidOpcodeException : List Instr := stub [0, 6]
def deviceNotAvaliableException : List Instr := stub [0, 7]
def doubleFaultException : List Instr := stub [8]
def coprocessorSegmentOverrunException : List Instr := stub [0, 9]
def invalidTSSException : List Instr := stub [10]
def segmentNotPresentException : List Instr := stub [11]
def stackSegmentFaultException : List Instr := stub [12]
def generalProtectionFaultException : List Instr := stub [13]
def pageFaultException : List Instr := stub [14]
def floatingPointException : List Instr := stub [0, 16]
def alignmentCheckException : List Instr := stub [17]
def machineCheckException : List Instr := stub [0, 18]
def simdFloatingPointException : List Instr := stub [0, 19]
def virtualisationException : List Instr := stub [0, 20]

/-- The stubs that `initIRQ` installs, with their vectors. -/
def exceptionStubs : List (UInt64 × List Instr) :=
  [(0, divideException), (1, debugException), (3, breakpointException), (4, overflowException),
    (5, boundRangeExceededException), (6, invalidOpcodeException),
    (7, deviceNotAvaliableException), (8, doubleFaultException),
    (9, coprocessorSegmentOverrunException), (10, invalidTSSException),
    (11, segmentNotPresentException), (12, stackSegmentFaultException),
    (13, generalProtectionFaultException), (14, pageFaultException),
    (16, floatingPointException), (17, alignmentCheckException), (18, machineCheckException),
    (19, simdFloatingPointException), (20, virtualisationException)]

/-! ## Section 3: `baseHandler` -/

/-- `baseHandler` up to the call. -/
def saveRegisters : List Instr :=
  [.push .rax, .push .rbx, .push .rcx, .push .rdx, .push .rsi, .push .rdi, .push .rbp,
    .push .r8, .push .r9, .push .r10, .push .r11, .push .r12, .push .r13, .push .r14, .push .r15,
    .mov_cr2 .rax, .push .rax, .cld, .mov .rdi .rsp]

/-- `baseHandler` from the call to `iretq`. -/
def restoreRegisters : List Instr :=
  [.add_rsp 8, .pop .r15, .pop .r14, .pop .r13, .pop .r12, .pop .r11, .pop .r10, .pop .r9,
    .pop .r8, .pop .rbp, .pop .rdi, .pop .rsi, .pop .rdx, .pop .rcx, .pop .rbx, .pop .rax,
    .add_rsp 0x10]

/-- The state on entry to `exceptionHandler`: the call has pushed its return
    address. -/
def handlerEntry (c : Cpu) (vector errorCode stack returnAddress : UInt64) (code : List Instr) :
    Cpu :=
  (execute (code ++ saveRegisters) (raise c vector errorCode stack)).push returnAddress

/-- The rest of `baseHandler`, from the state in which `exceptionHandler`
    executes its `ret`. -/
def handlerExit (c : Cpu) : Cpu :=
  iretq (execute restoreRegisters (c.set .rsp (c.reg .rsp + 8)))

/-- `struct IDTEFrame`. -/
structure IDTEFrame where
  cr2   : UInt64
  r15   : UInt64
  r14   : UInt64
  r13   : UInt64
  r12   : UInt64
  r11   : UInt64
  r10   : UInt64
  r9    : UInt64
  r8    : UInt64
  rbp   : UInt64
  rdi   : UInt64
  rsi   : UInt64
  rdx   : UInt64
  rcx   : UInt64
  rbx   : UInt64
  rax   : UInt64
  type  : UInt64
  code  : UInt64
  rip   : UInt64
  cs    : UInt64
  flags : UInt64
  rsp   : UInt64
  ss    : UInt64

/-- The structure at the address `a`: 23 words, in the order of the fields. -/
def idteFrameAt (m : Mem) (a : UInt64) : IDTEFrame where
  cr2   := m.load64 a
  r15   := m.load64 (a + 8)
  r14   := m.load64 (a + 16)
  r13   := m.load64 (a + 24)
  r12   := m.load64 (a + 32)
  r11   := m.load64 (a + 40)
  r10   := m.load64 (a + 48)
  r9    := m.load64 (a + 56)
  r8    := m.load64 (a + 64)
  rbp   := m.load64 (a + 72)
  rdi   := m.load64 (a + 80)
  rsi   := m.load64 (a + 88)
  rdx   := m.load64 (a + 96)
  rcx   := m.load64 (a + 104)
  rbx   := m.load64 (a + 112)
  rax   := m.load64 (a + 120)
  type  := m.load64 (a + 128)
  code  := m.load64 (a + 136)
  rip   := m.load64 (a + 144)
  cs    := m.load64 (a + 152)
  flags := m.load64 (a + 160)
  rsp   := m.load64 (a + 168)
  ss    := m.load64 (a + 176)

end ArgaldOS
