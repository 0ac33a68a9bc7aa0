/- Module: BmsFirmware/Drive/I2c
   Source: application/drive/i2c.c, application/drive/i2c.h
   Digest: The polled I2C master: bounded waits, page writes, standby and buffer reads. -/

import BmsFirmware.Library.ByteMemory
import BmsFirmware.Library.PowerLogic

set_option autoImplicit false
set_option relaxedAutoImplicit false

namespace BmsFirmware.Drive.I2c

open BmsFirmware.Library.ByteMemory
open BmsFirmware.Library.PowerLogic

def I2C_OK : Byte := 1
def I2C_FAIL : Byte := 0
def I2C_END : Byte := 1

def I2C_PAGE_SIZE : Byte := 8
def I2C_TIME_OUT : Nat := 10000

/-- `slave_address`, which nothing assigns. -/
def slaveAddress : Half := 0x10

/-- `I2C_STATUS`. -/
inductive I2cStatus where
  | start
  | sendAddress
  | clearAddressFlag
  | transmitData
  | stop
  deriving DecidableEq

/-- What the code polls: flags of the status registers, and the stop bit of the control
register. -/
inductive Flag where
  | i2cbsy
  | sbsend
  | addsend
  | aerr
  | tbe
  | btc
  | rbne
  | stop
  deriving DecidableEq

/-- What the peripheral makes of the polls: the value of the flag that poll `k` looks at,
and the byte that read `k` takes out of the data register. -/
structure Hardware where
  flag : Nat → Flag → Bool
  data : Nat → Byte

inductive Routine where
  | standby
  | pageWrite
  | bufferRead
  deriving DecidableEq

/-- What the code does to the peripheral. A data byte of a page write goes with the address
it is loaded from, a received byte with the address it is stored to; `waited` notes how a
bounded wait ended. -/
inductive Event where
  | ackConfig (enable : Bool)
  | ackposNext
  | startOnBus
  | stopOnBus
  | masterAddressing (address : Half) (receiver : Bool)
  | flagClear (flag : Flag)
  | addressTransmit (data : Byte)
  | dataTransmit (source : Nat) (data : Byte)
  | dataReceive (target : Nat) (data : Byte)
  | busReset
  | waited (routine : Routine) (flag : Flag) (seen : Bool)
  deriving DecidableEq

/-- The memory that the buffers lie in, how often the peripheral has been polled and its
data register read, and what has been done to it; the code does not read the last three. -/
structure Bus where
  memory : Memory
  polls : Nat
  received : Nat
  journal : List Event

section Code

variable (hw : Hardware)

/-! ### The peripheral library -/

/-- `i2c_flag_get`, or the test of the stop bit. -/
def flagGet (flag : Flag) : Proc Bus Bool := fun s =>
  .done (hw.flag s.polls flag) { s with polls := s.polls + 1 }

def act (event : Event) : Proc Bus Unit :=
  Proc.modify fun s => { s with journal := s.journal ++ [event] }

/-- `*p_buffer = i2c_data_receive(I2CX)`. -/
def dataReceive (pBuffer : Nat) : Proc Bus Unit := Proc.modify fun s =>
  { s with
    memory := Function.update s.memory pBuffer (hw.data s.received)
    received := s.received + 1
    journal := s.journal ++ [.dataReceive pBuffer (hw.data s.received)] }

/-- `i2c_data_transmit(I2CX, *p_buffer)`. -/
def dataTransmit (pBuffer : Nat) : Proc Bus Unit := Proc.modify fun s =>
  { s with journal := s.journal ++ [.dataTransmit pBuffer (s.memory pBuffer)] }

/-! ### Waits -/

/-- `while (waiting && (timeout < I2C_TIME_OUT)) timeout++`, `n` counts before the time-out;
whether it was left in time. -/
def inTime (waiting : Proc Bus Bool) : Nat → Proc Bus Bool
  | 0 => do
      let _ ← waiting
      return false
  | n + 1 => do
      if ← waiting then inTime waiting n else return true

/-- A bounded wait of a routine for something to become visible. -/
def bounded (routine : Routine) (flag : Flag) (waiting : Proc Bus Bool) : Proc Bus Bool := do
  let seen ← inTime waiting I2C_TIME_OUT
  act (.waited routine flag seen)
  return seen

/-- Until the flag is set. -/
def waitSet (routine : Routine) (flag : Flag) : Proc Bus Bool :=
  bounded routine flag do
    let set ← flagGet hw flag
    return !set

/-- Until the flag is clear. -/
def waitClear (routine : Routine) (flag : Flag) : Proc Bus Bool :=
  bounded routine flag (flagGet hw flag)

/-- `while (!i2c_flag_get(I2CX, I2C_FLAG_BTC));`. -/
def awaitBtc (fuel : Nat) : Proc Bus Unit :=
  loopWith (fun _ : Unit => do
    let set ← flagGet hw .btc
    return if set then .inr () else .inl ()) fuel ()

/-! ### Standby -/

/-- One pass of `switch (state)` in `i2c_wait_standby_state_timeout`. -/
def standbyTurn : I2cStatus → Proc Bus (I2cStatus ⊕ Byte)
  | .start => do
      if ← waitClear hw .standby .i2cbsy then
        act .startOnBus
        return .inl .sendAddress
      act .busReset
      return .inl .start
  | .sendAddress => do
      if ← waitSet hw .standby .sbsend then
        act (.masterAddressing slaveAddress false)
        return .inl .clearAddressFlag
      return .inl .start
  | .clearAddressFlag => do
      let waiting : Proc Bus Bool := do
        if ← flagGet hw .addsend then return false
        let set ← flagGet hw .aerr
        return !set
      if ← bounded .standby .addsend waiting then
        if ← flagGet hw .addsend then
          act (.flagClear .addsend)
          act .stopOnBus
          return .inr I2C_END
        act (.flagClear .aerr)
        return .inl .stop
      return .inl .start
  | .stop => do
      act .stopOnBus
      let _ ← waitClear hw .standby .stop
      return .inl .start
  | .transmitData => return .inl .start

def i2cWaitStandbyStateTimeout (fuel : Nat) : Proc Bus Byte :=
  loopWith (standbyTurn hw) fuel .start

/-! ### Page writes -/

/-- The variables of `i2c_page_write_timeout` that outlive a pass of its loop. -/
structure PageWrite where
  state : I2cStatus
  pBuffer : Nat
  numberOfByte : Byte

/-- `while (number_of_byte--)`; the test that ends the loop decrements as well. -/
def transmitBytes : Nat → PageWrite → Proc Bus PageWrite
  | 0, l => return { l with numberOfByte := l.numberOfByte - 1 }
  | n + 1, l => do
      dataTransmit l.pBuffer
      let seen ← waitSet hw .pageWrite .btc
      transmitBytes n
        { state := if seen then l.state else .start
          pBuffer := l.pBuffer + 1
          numberOfByte := l.numberOfByte - 1 }

/-- One pass of `switch (state)` in `i2c_page_write_timeout`. -/
def pageWriteTurn (writeAddress : Byte) (l : PageWrite) : Proc Bus (PageWrite ⊕ Byte) :=
  match l.state with
  | .start => do
      if ← waitClear hw .pageWrite .i2cbsy then
        act .startOnBus
        return .inl { l with state := .sendAddress }
      act .busReset
      return .inr I2C_FAIL
  | .sendAddress => do
      if ← waitSet hw .pageWrite .sbsend then
        act (.masterAddressing slaveAddress false)
        return .inl { l with state := .clearAddressFlag }
      return .inl { l with state := .start }
  | .clearAddressFlag => do
      if ← waitSet hw .pageWrite .addsend then
        act (.flagClear .addsend)
        return .inl { l with state := .transmitData }
      act .busReset
      return .inr I2C_FAIL
  | .transmitData => do
      let empty ← waitSet hw .pageWrite .tbe
      if empty then
        act (.addressTransmit writeAddress)
      let seen ← waitSet hw .pageWrite .btc
      -- A time-out assigns the state, which the end of this case assigns again.
      let l ← transmitBytes hw l.numberOfByte.toNat
        { l with state := if empty && seen then l.state else .start }
      return .inl { l with state := .stop }
  | .stop => do
      act .stopOnBus
      if ← waitClear hw .pageWrite .stop then
        return .inr I2C_END
      return .inl { l with state := .start }

def i2cPageWriteTimeout (fuel : Nat) (pBuffer : Nat) (writeAddress numberOfByte : Byte) :
    Proc Bus Byte := do
  act (.ackConfig true)
  loopWith (pageWriteTurn hw writeAddress) fuel ⟨.start, pBuffer, numberOfByte⟩

/-! ### Buffer reads -/

/-- The variables of `i2c_buffer_read` that outlive a pass of its loop; `read_cycle` is
only ever 0 or 1, and `timeout` is left at 0 except in the loop over the data. -/
structure BufferRead where
  state : I2cStatus
  readCycle : Bool
  pBuffer : Nat
  numberOfByte : Half
  timeout : Nat

/-- The two tests of the count in the loop over the data, of which at most one holds. -/
def beforeByte (fuel : Nat) (numberOfByte : Half) : Proc Bus Unit :=
  if numberOfByte = 3 then do
    awaitBtc hw fuel
    act (.ackConfig false)
  else if numberOfByte = 2 then do
    awaitBtc hw fuel
    act .stopOnBus
  else pure ()

/-- One pass of `while (number_of_byte)`. -/
def dataTurn (fuel : Nat) (l : BufferRead) : Proc Bus (BufferRead ⊕ BufferRead) :=
  if l.numberOfByte = 0 then return .inr l
  else do
    beforeByte hw fuel l.numberOfByte
    if ← flagGet hw .rbne then
      dataReceive hw l.pBuffer
      return .inl { l with
        pBuffer := l.pBuffer + 1
        numberOfByte := l.numberOfByte - 1
        timeout := 0 }
    if l.timeout + 1 > I2C_TIME_OUT then
      return .inl { l with state := .start, readCycle := false, timeout := 0 }
    return .inl { l with timeout := l.timeout + 1 }

/-- One pass of `switch (state)` in `i2c_buffer_read`. -/
def bufferReadTurn (fuel : Nat) (readAddress : Byte) (l : BufferRead) :
    Proc Bus (BufferRead ⊕ Byte) :=
  match l.state with
  | .start =>
      if l.readCycle then do
        act .startOnBus
        return .inl { l with state := .sendAddress }
      else do
        if ← waitClear hw .bufferRead .i2cbsy then
          if l.numberOfByte = 2 then
            act .ackposNext
          act .startOnBus
          return .inl { l with state := .sendAddress }
        act .busReset
        return .inr I2C_FAIL
  | .sendAddress => do
      if ← waitSet hw .bufferRead .sbsend then
        act (.masterAddressing slaveAddress l.readCycle)
        if l.readCycle ∧ l.numberOfByte < 3 then
          act (.ackConfig false)
        return .inl { l with state := .clearAddressFlag }
      act .busReset
      return .inl { l with state := .start, readCycle := false }
  | .clearAddressFlag => do
      if ← waitSet hw .bufferRead .addsend then
        act (.flagClear .addsend)
        if l.readCycle ∧ l.numberOfByte = 1 then
          act .stopOnBus
        return .inl { l with state := .transmitData }
      act .busReset
      return .inr I2C_FAIL
  | .transmitData =>
      if l.readCycle then do
        let l ← loopWith (dataTurn hw fuel) fuel l
        return .inl { l with state := .stop, timeout := 0 }
      else do
        -- Without the time-out the address goes out; with it only the variables are reset.
        if ← waitSet hw .bufferRead .tbe then
          act (.addressTransmit readAddress)
        if ← waitSet hw .bufferRead .btc then
          return .inl { l with state := .start, readCycle := true }
        act .busReset
        return .inr I2C_FAIL
  | .stop => do
      if ← waitClear hw .bufferRead .stop then
        return .inr I2C_END
      return .inl { l with state := .start, readCycle := false }

def i2cBufferRead (fuel : Nat) (pBuffer : Nat) (readAddress : Byte) (numberOfByte : Half) :
    Proc Bus Byte := do
  act (.ackConfig true)
  loopWith (bufferReadTurn hw fuel readAddress) fuel ⟨.start, false, pBuffer, numberOfByte, 0⟩

end Code

/-! ### Buffer writes -/

section BufferWrite

variable {σ : Type} (pageWrite : Nat → Byte → Byte → Proc σ Byte) (standby : Proc σ Byte)

/-- A page write and the wait for standby, either of which may end the buffer write. -/
def writeThen (pBuffer : Nat) (writeAddress numberOfByte : Byte) (next : Byte → Proc σ Byte) :
    Proc σ Byte := do
  let result ← pageWrite pBuffer writeAddress numberOfByte
  if result ≠ I2C_OK then
    return result
  let result ← standby
  if result ≠ I2C_OK then
    return result
  next result

theorem writeThen_refused {pageWrite : Nat → Byte → Byte → Proc σ Byte} {standby : Proc σ Byte}
    {pBuffer : Nat} {writeAddress numberOfByte result : Byte} {next : Byte → Proc σ Byte} {s t : σ}
    (written : pageWrite pBuffer writeAddress numberOfByte s = .done result t)
    (refused : result ≠ I2C_OK) :
    writeThen pageWrite standby pBuffer writeAddress numberOfByte next s = .done result t := by
  rw [writeThen, bind_done written, if_pos refused]
  rfl

theorem writeThen_noStandby {pageWrite : Nat → Byte → Byte → Proc σ Byte} {standby : Proc σ Byte}
    {pBuffer : Nat} {writeAddress numberOfByte result : Byte} {next : Byte → Proc σ Byte}
    {s t u : σ} (written : pageWrite pBuffer writeAddress numberOfByte s = .done I2C_OK t)
    (waited : standby t = .done result u) (refused : result ≠ I2C_OK) :
    writeThen pageWrite standby pBuffer writeAddress numberOfByte next s = .done result u := by
  rw [writeThen, bind_done written, if_neg (by simp), bind_done waited, if_pos refused]
  rfl

theorem writeThen_goesOn {pageWrite : Nat → Byte → Byte → Proc σ Byte} {standby : Proc σ Byte}
    {pBuffer : Nat} {writeAddress numberOfByte : Byte} {next : Byte → Proc σ Byte} {s t u : σ}
    (written : pageWrite pBuffer writeAddress numberOfByte s = .done I2C_OK t)
    (waited : standby t = .done I2C_OK u) :
    writeThen pageWrite standby pBuffer writeAddress numberOfByte next s = next I2C_OK u := by
  rw [writeThen, bind_done written, if_neg (by simp), bind_done waited, if_neg (by simp)]

/-- `while (number_of_page--)`, and what follows it. -/
def writePages (next : Nat → Byte → Byte → Proc σ Byte) :
    Nat → Nat → Byte → Byte → Proc σ Byte
  | 0, pBuffer, writeAddress, result => next pBuffer writeAddress result
  | n + 1, pBuffer, writeAddress, _ =>
      writeThen pageWrite standby pBuffer writeAddress I2C_PAGE_SIZE fun result =>
        writePages next n (pBuffer + I2C_PAGE_SIZE.toNat) (writeAddress + I2C_PAGE_SIZE) result

/-- `if (0 != number_of_single)`. -/
def writeSingle (numberOfSingle : Byte) (pBuffer : Nat) (writeAddress result : Byte) :
    Proc σ Byte :=
  if numberOfSingle ≠ 0 then writeThen pageWrite standby pBuffer writeAddress numberOfSingle pure
  else pure result

/-- `i2c_buffer_write`; page and single counts are 8-bit variables. -/
def bufferWrite (pBuffer : Nat) (writeAddress : Byte) (numberOfByte : Half) : Proc σ Byte :=
  let address := writeAddress % I2C_PAGE_SIZE
  let count := I2C_PAGE_SIZE - address
  let numberOfPage (numberOfByte : Half) : Byte := (numberOfByte / 8).setWidth 8
  let numberOfSingle (numberOfByte : Half) : Byte := (numberOfByte % 8).setWidth 8
  let result : Byte := 3
  if address = 0 then
    writePages pageWrite standby (writeSingle pageWrite standby (numberOfSingle numberOfByte))
      (numberOfPage numberOfByte).toNat pBuffer writeAddress result
  else if numberOfByte < count.setWidth 16 then
    writeThen pageWrite standby pBuffer writeAddress (numberOfByte.setWidth 8) pure
  else
    let numberOfByte := numberOfByte - count.setWidth 16
    let rest := writePages pageWrite standby
      (writeSingle pageWrite standby (numberOfSingle numberOfByte))
      (numberOfPage numberOfByte).toNat
    if count ≠ 0 then
      writeThen pageWrite standby pBuffer writeAddress count
        (rest (pBuffer + count.toNat) (writeAddress + count))
    else rest pBuffer writeAddress result

end BufferWrite

/-- `i2c_buffer_write` over the page writes and the standby of the peripheral. -/
def i2cBufferWrite (hw : Hardware) (fuel : Nat) : Nat → Byte → Half → Proc Bus Byte :=
  bufferWrite (i2cPageWriteTimeout hw fuel) (i2cWaitStandbyStateTimeout hw fuel)

end BmsFirmware.Drive.I2c
