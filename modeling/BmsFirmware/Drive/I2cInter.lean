/- Module: BmsFirmware/Drive/I2cInter
   Source: application/drive/i2c_inter.c, firmware/gd32f30x/.../gd32f30x_i2c.c
   Digest: The interrupt-driven I2C master: requests, both interrupt handlers, and the bus. -/

import BmsFirmware.Library.ActionMachine
import BmsFirmware.Library.ByteMemory

set_option autoImplicit false
set_option relaxedAutoImplicit false

namespace BmsFirmware.Drive.I2cInter

open BmsFirmware.Library.ByteMemory
open BmsFirmware.Library.ActionMachine

/-! ### The variables of the driver -/

/-- `i2c_operation_t`. -/
inductive Operation where
  | none
  | write
  | read
  deriving DecidableEq

/-- `i2c_sub_state_t`. -/
inductive SubState where
  | idle
  | writeStart
  | writeSendAddrW
  | writeAddrWAck
  | writeSendReg
  | writeRegWait
  | writeSendData
  | writeDataWait
  | writeStop
  | readStart1
  | readSendAddrW
  | readAddrWAck
  | readSendReg
  | readRegWait
  | readStart2
  | readSendAddrR
  | readAddrRAck
  | readData
  | read3LeftWaitBtc
  | readStop
  deriving DecidableEq

/-- The flags of the status register that the handlers test. -/
inductive Flag where
  | sbsend
  | addsend
  | btc
  | rbne
  | tbe
  | berr
  | lostarb
  | aerr
  | ouerr
  | pecerr
  | smbto
  | smbalt
  deriving DecidableEq

/-- `i2c_interrupt_enum`. -/
inductive Interrupt where
  | err
  | ev
  | buf
  deriving DecidableEq

/-- The control bits of the peripheral and of the interrupt controller. -/
structure Peripheral where
  i2cen : Bool
  acken : Bool
  poap : Bool
  errie : Bool
  evie : Bool
  bufie : Bool
  evIrq : Bool
  erIrq : Bool

/-- What the driver does on the bus. -/
inductive BusOp where
  | start
  | stop
  | addressing (address : Byte)
  | dataTransmit (data : Byte)
  | dataReceive (data : Byte)
  | flagClear (flag : Flag)
  deriving DecidableEq

/-- The variables of the driver with the memory its buffers lie in. `journal` lists what it
has done on the bus so far; the code does not read it. -/
structure Driver where
  op : Operation
  state : SubState
  busy : Bool
  success : Bool
  slaveAddr : Byte
  regAddr : Byte
  txBuf : Nat
  txCount : Word
  rxBuf : Nat
  rxCount : Word
  memory : Memory
  peripheral : Peripheral
  journal : List BusOp

/-! ### The peripheral library -/

/-- `i2c_interrupt_flag_get`: the flag and the enable bit behind it; the buffer flags need two. -/
def interruptFlagGet (stat : Flag → Bool) (p : Peripheral) (flag : Flag) : Bool :=
  let intenable := match flag with
    | .sbsend | .addsend | .btc => p.evie
    | .rbne | .tbe => p.evie && p.bufie
    | .berr | .lostarb | .aerr | .ouerr | .pecerr | .smbto | .smbalt => p.errie
  stat flag && intenable

section Library

variable (s : Driver)

def onBus (op : BusOp) : Driver := { s with journal := s.journal ++ [op] }

def i2cInterruptEnable (interrupt : Interrupt) : Driver :=
  { s with
    peripheral := match interrupt with
      | .err => { s.peripheral with errie := true }
      | .ev => { s.peripheral with evie := true }
      | .buf => { s.peripheral with bufie := true } }

def i2cInterruptDisable (interrupt : Interrupt) : Driver :=
  { s with
    peripheral := match interrupt with
      | .err => { s.peripheral with errie := false }
      | .ev => { s.peripheral with evie := false }
      | .buf => { s.peripheral with bufie := false } }

def i2cAckConfig (acken : Bool) : Driver :=
  { s with peripheral := { s.peripheral with acken := acken } }

def i2cAckposConfig (poap : Bool) : Driver :=
  { s with peripheral := { s.peripheral with poap := poap } }

/-- `i2c_interrupt_init`, less the clocks and the pins. -/
def i2cInterruptInit : Driver :=
  { s with peripheral :=
      { s.peripheral with i2cen := true, acken := true, evIrq := true, erIrq := true } }

def i2cInterruptDeinit : Driver :=
  { s with peripheral :=
      { s.peripheral with i2cen := false, acken := false, evIrq := false, erIrq := false } }

end Library

/-! ### Requests -/

/-- The arguments of a transfer request; buffers are known by their addresses. -/
inductive Request where
  | write (devAddr regAddr : Byte) (pData : Nat) (length : Word)
  | read (devAddr regAddr : Byte) (pBuf : Nat) (length : Word)

def i2cMasterWriteReg (devAddr regAddr : Byte) (pData : Nat) (length : Word) (s : Driver) :
    Driver :=
  if s.busy then s
  else
    let s : Driver :=
      { s with
        busy := true
        success := false
        op := .write
        state := .writeStart
        slaveAddr := devAddr
        regAddr := regAddr
        txBuf := pData
        txCount := length }
    let s := i2cInterruptEnable s .ev
    let s := i2cInterruptEnable s .err
    let s := i2cInterruptEnable s .buf
    onBus s .start

def i2cMasterReadReg (devAddr regAddr : Byte) (pBuf : Nat) (length : Word) (s : Driver) : Driver :=
  if s.busy then s
  else
    let s : Driver :=
      { s with
        busy := true
        success := false
        op := .read
        state := .readStart1
        slaveAddr := devAddr
        regAddr := regAddr
        rxBuf := pBuf
        rxCount := length }
    let s := i2cInterruptEnable s .ev
    let s := i2cInterruptEnable s .err
    let s := i2cInterruptEnable s .buf
    onBus s .start

/-! ### The event interrupt -/

/-- `*g_i2cRxBuf++ = i2c_data_receive(I2C_DEV); g_rxCount--`. -/
def takeByte (data : Byte) (s : Driver) : Driver :=
  { onBus s (.dataReceive data) with
    memory := Function.update s.memory s.rxBuf data
    rxBuf := s.rxBuf + 1
    rxCount := s.rxCount - 1 }

/-- The case of `I2C_STATE_READ_SEND_ADDR_R` once the address is out. -/
def addressedToRead (s : Driver) : Driver :=
  let s := onBus s (.flagClear .addsend)
  let s := if s.rxCount ≤ 2 then i2cAckConfig s false else s
  { s with state := .readData }

/-- The case of `I2C_STATE_READ_DATA` once a byte is there. -/
def receiveData (data : Byte) (s : Driver) : Driver :=
  let s := takeByte data s
  if s.rxCount = 3 then { s with state := .read3LeftWaitBtc }
  else if s.rxCount = 0 then { onBus s .stop with state := .readStop }
  else s

/-- The case of `I2C_STATE_READ_STOP`. -/
def finishRead (s : Driver) : Driver :=
  let s := { s with busy := false, success := true }
  let s := i2cAckConfig s true
  let s := i2cAckposConfig s false
  let s := { s with state := .idle, op := .none }
  let s := i2cInterruptDisable s .ev
  let s := i2cInterruptDisable s .err
  i2cInterruptDisable s .buf

/-- `I2C0_EV_IRQHandler` with the flags the status register shows and the byte in the data
register; its messages are left out. -/
def evIrqHandler (stat : Flag → Bool) (data : Byte) (s : Driver) : Driver :=
  let flag := interruptFlagGet stat s.peripheral
  match s.state with
  | .readStart1 =>
      if flag .sbsend then
        { onBus s (.addressing (s.slaveAddr &&& 0xFE)) with state := .readSendAddrW }
      else s
  | .readSendAddrW =>
      if flag .addsend then { onBus s (.flagClear .addsend) with state := .readAddrWAck } else s
  | .readAddrWAck =>
      if flag .tbe then { onBus s (.dataTransmit s.regAddr) with state := .readSendReg } else s
  | .readSendReg => if flag .btc then { onBus s .start with state := .readStart2 } else s
  | .readStart2 =>
      if flag .sbsend then
        { onBus s (.addressing (s.slaveAddr ||| 0x01)) with state := .readSendAddrR }
      else s
  | .readSendAddrR => if flag .addsend then addressedToRead s else s
  | .readData => if flag .rbne then receiveData data s else s
  | .read3LeftWaitBtc =>
      if flag .btc then { i2cAckConfig s false with state := .readData } else s
  | .readStop => finishRead s
  | _ => s

/-! ### The error interrupt -/

/-- The flags that the error handler tests and clears, in its order. -/
def errorFlags : List Flag := [.aerr, .smbalt, .smbto, .ouerr, .lostarb, .berr, .pecerr]

/-- `I2C0_ER_IRQHandler`. -/
def erIrqHandler (stat : Flag → Bool) (s : Driver) : Driver :=
  let cleared := errorFlags.filter (interruptFlagGet stat s.peripheral)
  let s := { s with journal := s.journal ++ cleared.map .flagClear }
  let s := i2cInterruptDisable s .ev
  let s := i2cInterruptDisable s .err
  let s := i2cInterruptDisable s .buf
  i2cInterruptInit (i2cInterruptDeinit s)

/-! ### The driver and its environment -/

/-- A request is made, or one of the two interrupts is served. -/
inductive Action where
  | request (r : Request)
  | event (stat : Flag → Bool) (data : Byte)
  | error (stat : Flag → Bool)

def Request.run : Request → Driver → Driver
  | .write devAddr regAddr pData length => i2cMasterWriteReg devAddr regAddr pData length
  | .read devAddr regAddr pBuf length => i2cMasterReadReg devAddr regAddr pBuf length

def Action.run : Action → Driver → Driver
  | .request r => r.run
  | .event stat data => evIrqHandler stat data
  | .error stat => erIrqHandler stat

/-- Nothing is emitted; what is seen of the driver is its journal. -/
def step (a : Action) (s : Driver) : Driver × Option Empty := (a.run s, none)

/-- The driver once `main` has initialised it. -/
def Driver.initial (memory : Memory) : Driver :=
  i2cInterruptInit
    { op := .none
      state := .idle
      busy := false
      success := false
      slaveAddr := 0x10
      regAddr := 0
      txBuf := 0
      txCount := 0
      rxBuf := 0
      rxCount := 0
      memory := memory
      peripheral := ⟨false, false, false, false, false, false, false, false⟩
      journal := [] }

/-- Event interrupts that find every flag set. -/
def flagged (data : Byte) (n : Nat) : List Action := List.replicate n (.event (fun _ => true) data)

/-- The driver can take a request. -/
structure Driver.Idle (s : Driver) : Prop where
  state : s.state = .idle
  free : s.busy = false

/-! ### What an event interrupt can do -/

/-- The sub-states of a read. -/
def InRead (state : SubState) : Prop :=
  state ∈ [.readStart1, .readSendAddrW, .readAddrWAck, .readSendReg, .readStart2,
    .readSendAddrR, .readData, .read3LeftWaitBtc, .readStop]

instance (state : SubState) : Decidable (InRead state) := inferInstanceAs (Decidable (_ ∈ _))

/-- The sub-states before the address is sent for reading, in order. -/
def preludeNext : SubState → Option SubState
  | .readStart1 => some .readSendAddrW
  | .readSendAddrW => some .readAddrWAck
  | .readAddrWAck => some .readSendReg
  | .readSendReg => some .readStart2
  | .readStart2 => some .readSendAddrR
  | _ => none

/-- Every sub-state before the data leads to another. -/
theorem preludeNext_inRead {state next : SubState} (move : preludeNext state = some next) :
    InRead next ∧ state ≠ .readStop ∧ next ≠ .readStop := by
  cases state with
  | readStart1 | readSendAddrW | readAddrWAck | readSendReg | readStart2 =>
    obtain rfl := Option.some.inj move
    decide
  | _ => cases move

/-- Neither a byte taken nor a stop condition. -/
def BusOp.Quiet : BusOp → Prop
  | .dataReceive _ => False
  | .stop => False
  | _ => True

/-- The outcomes of an event interrupt that finds the byte `data`. -/
inductive EventStep (data : Byte) (s : Driver) : Driver → Prop where
  | ignored : EventStep data s s
  | prelude {next : SubState} (move : preludeNext s.state = some next) (op : BusOp)
      (quiet : op.Quiet) : EventStep data s { onBus s op with state := next }
  | addressed (here : s.state = .readSendAddrR) : EventStep data s (addressedToRead s)
  | received (here : s.state = .readData) : EventStep data s (receiveData data s)
  | threeLeft (here : s.state = .read3LeftWaitBtc) :
      EventStep data s { i2cAckConfig s false with state := .readData }
  | stopped (here : s.state = .readStop) : EventStep data s (finishRead s)

theorem evIrqHandler_step (stat : Flag → Bool) (data : Byte) (s : Driver) :
    EventStep data s (evIrqHandler stat data s) := by
  have orIgnored {flag : Bool} {t : Driver} (moved : EventStep data s t) :
      EventStep data s (if flag then t else s) := by
    cases flag with
    | false => exact .ignored
    | true => exact moved
  unfold evIrqHandler
  dsimp only
  cases here : s.state with
  | readStart1 => exact orIgnored (.prelude (by rw [here]; rfl) _ trivial)
  | readSendAddrW => exact orIgnored (.prelude (by rw [here]; rfl) _ trivial)
  | readAddrWAck => exact orIgnored (.prelude (by rw [here]; rfl) _ trivial)
  | readSendReg => exact orIgnored (.prelude (by rw [here]; rfl) _ trivial)
  | readStart2 => exact orIgnored (.prelude (by rw [here]; rfl) _ trivial)
  | readSendAddrR => exact orIgnored (.addressed here)
  | readData => exact orIgnored (.received here)
  | read3LeftWaitBtc => exact orIgnored (.threeLeft here)
  | readStop => exact .stopped here
  | _ => exact .ignored

/-- A counter above zero loses one. -/
theorem count_less {count : Word} (some : count ≠ 0) : (count - 1).toNat + 1 = count.toNat := by
  have positive : count.toNat ≠ 0 := fun zero => some (BitVec.eq_of_toNat_eq zero)
  have one : (1 : Word).toNat = 1 := rfl
  have bound := count.isLt
  rw [BitVec.toNat_sub]
  omega

/-- Once the address is out, only the acknowledge depends on the length. -/
theorem addressedToRead_eq (s : Driver) :
    addressedToRead s = { s with
      state := .readData
      peripheral :=
        { s.peripheral with acken := if s.rxCount ≤ 2 then false else s.peripheral.acken }
      journal := s.journal ++ [.flagClear .addsend] } := by
  have count : (onBus s (.flagClear .addsend)).rxCount = s.rxCount := rfl
  unfold addressedToRead
  dsimp only
  rw [count]
  split_ifs <;> rfl

theorem receiveData_state (data : Byte) (s : Driver) :
    (receiveData data s).state =
      if s.rxCount - 1 = 3 then .read3LeftWaitBtc
      else if s.rxCount - 1 = 0 then .readStop
      else s.state := by
  have count : (takeByte data s).rxCount = s.rxCount - 1 := rfl
  unfold receiveData
  dsimp only
  rw [count]
  split_ifs <;> rfl

theorem receiveData_count (data : Byte) (s : Driver) :
    (receiveData data s).rxCount = s.rxCount - 1 := by
  unfold receiveData
  dsimp only
  split_ifs <;> rfl

/-- An error interrupt clears flags and switches the interrupts off; the variables of the
driver stay as they are. -/
theorem erIrqHandler_eq (stat : Flag → Bool) (s : Driver) :
    erIrqHandler stat s = { s with
      peripheral :=
        { s.peripheral with
          i2cen := true, acken := true, errie := false, evie := false, bufie := false,
          evIrq := true, erIrq := true }
      journal := s.journal ++
        (errorFlags.filter (interruptFlagGet stat s.peripheral)).map .flagClear } := by
  simp only [erIrqHandler, i2cInterruptDisable, i2cInterruptDeinit, i2cInterruptInit]

/-- A request that comes while the driver is busy changes nothing. -/
theorem request_busy {s : Driver} (busy : s.busy = true) (r : Request) : r.run s = s := by
  cases r <;> exact if_pos busy

end BmsFirmware.Drive.I2cInter
