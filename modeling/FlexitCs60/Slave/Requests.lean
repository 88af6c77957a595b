import FlexitCs60.Slave.Tables
import FlexitCs60.Uart
import FlexitCs60.Check

/-! Response builders and request handlers of the Modbus slave. A handler
returns the next state and, when it hands a response to `rs485_uart_send`, that
response with the value the call returned. -/
namespace FlexitCs60.Slave
open Wire

variable [Zephyr]

def respBufSize : Nat := 64

/-- The coil loop from index `i` on, `remaining` indices before `qty`. The coil
index is 16 bits wide, and the loop breaks at the first one past the table. -/
def packCoils (coils : Coils) (start : UInt16) : Nat → Nat → List UInt8 → List UInt8
  | 0, _, payload => payload
  | remaining + 1, i, payload =>
    let coilIdx := (start.toNat + i) % 2 ^ 16
    if past : coilCount ≤ coilIdx then payload
    else
      packCoils coils start remaining (i + 1)
        (if coils.test ⟨coilIdx, Nat.lt_of_not_le past⟩ then
          payload.modify (i / 8) (· ||| coilMask i)
        else payload)

def buildFc01Response (coils : Coils) (cap : Nat) (start qty : UInt16) : Option (List UInt8) :=
  if qty = 0 ∨ 2000 < qty.toNat then none
  else
    let bc := (qty.toNat + 7) / 8
    if cap < 3 + bc + 2 then none
    else
      let payload := packCoils coils start qty.toNat 0 (List.replicate bc 0)
      some (stampCrc ([slaveAddr, 0x01, UInt8.ofNat bc] ++ payload))

/-- The body shared by the FC03 and FC04 builders: a window of a register table
in big-endian words. -/
def buildRegsResponse (fc : UInt8) (limit : Nat) {size : Nat} (table : Vector UInt16 size)
    (cap : Nat) (addr qty : UInt16) : Option (List UInt8) :=
  if qty = 0 ∨ limit < qty.toNat then none
  else if size < addr.toNat + qty.toNat then none
  else
    let bc := qty.toNat * 2
    if cap < 3 + bc + 2 then none
    else
      let payload := (List.range qty.toNat).flatMap fun i => putBe16 (table[addr.toNat + i]?.getD 0)
      some (stampCrc ([slaveAddr, fc, UInt8.ofNat bc] ++ payload))

def buildFc03Response (regs : Vector UInt16 regCount) (cap : Nat) (addr qty : UInt16) :
    Option (List UInt8) :=
  buildRegsResponse 0x03 8 regs cap addr qty

def buildFc04Response (cap : Nat) (addr qty : UInt16) : Option (List UInt8) :=
  buildRegsResponse 0x04 inputRegCount inputRegs cap addr qty

/-- The body shared by the request handlers: stay silent without a response,
otherwise apply the locked update, send, and count a failed transmission. -/
def respond (resp : Option (List UInt8)) (serviced : State → State) (tx : Transmission)
    (s : State) : State × Option (List UInt8 × Int) :=
  match resp with
  | none => (s, none)
  | some resp =>
    let s := serviced s
    let err := (rs485UartSend tx resp).1
    (if err ≠ 0 then { s with txErrors := s.txErrors + 1 } else s, some (resp, err))

def handleFc01Request (tx : Transmission) (frame : List UInt8) (s : State) :
    State × Option (List UInt8 × Int) :=
  let start := getBe16 (frame.drop 2)
  let qty := getBe16 (frame.drop 4)
  respond (buildFc01Response s.coils respBufSize start qty)
    (fun s => { s with fc01Serviced := s.fc01Serviced + 1 }) tx s

/-- The request window covers the setpoint register and coil 12 is raised. -/
def readsSetpoint (addr qty : UInt16) (s : State) : Bool :=
  addr.toNat ≤ cmdSetpointAddr.val ∧ cmdSetpointAddr.val < addr.toNat + qty.toNat ∧
    s.coils.test cmdSetpointAddr

/-- The update under the mutex: count, and self-clear coil 12 on a read. -/
def serviceFc03 (addr qty : UInt16) (s : State) : State :=
  let s := { s with fc03Serviced := s.fc03Serviced + 1 }
  if readsSetpoint addr qty s then
    { s with
      coils := s.coils.lower cmdSetpointAddr
      setpointReads := s.setpointReads + 1 }
  else s

omit [Zephyr] in
theorem serviceFc03_coils (addr qty : UInt16) (s : State) : (serviceFc03 addr qty s).coils =
    if readsSetpoint addr qty s then s.coils.lower cmdSetpointAddr else s.coils := by
  unfold serviceFc03
  have same : readsSetpoint addr qty { s with fc03Serviced := s.fc03Serviced + 1 } =
      readsSetpoint addr qty s := rfl
  dsimp only
  rw [same]
  cases readsSetpoint addr qty s <;> rfl

omit [Zephyr] in
theorem serviceFc03_regs (addr qty : UInt16) (s : State) :
    (serviceFc03 addr qty s).regs = s.regs := by
  unfold serviceFc03
  dsimp only
  split <;> rfl

def handleFc03Request (tx : Transmission) (frame : List UInt8) (s : State) :
    State × Option (List UInt8 × Int) :=
  let addr := getBe16 (frame.drop 2)
  let qty := getBe16 (frame.drop 4)
  respond (buildFc03Response s.regs respBufSize addr qty) (serviceFc03 addr qty) tx s

def handleFc04Request (tx : Transmission) (frame : List UInt8) (s : State) :
    State × Option (List UInt8 × Int) :=
  let addr := getBe16 (frame.drop 2)
  let qty := getBe16 (frame.drop 4)
  respond (buildFc04Response respBufSize addr qty)
    (fun s => { s with fc04Serviced := s.fc04Serviced + 1 }) tx s

/-- `uptime` is `k_uptime_get()`. -/
def handleFc65Broadcast (uptime : UInt64) (frame : List UInt8) (s : State) : State :=
  let addr := getBe16 (frame.drop 2)
  let value := getBe16 (frame.drop 4)
  let s := { s with fc65Acks := s.fc65Acks + 1 }
  if known : addr.toNat < regCount then
    let s := { s with
      regs := s.regs.set addr.toNat value
      coils := s.coils.lower ⟨addr.toNat, known⟩ }
    if addr.toNat = cmdModeAddr.val then
      { s with lastAckedMode := value, lastAckUptimeMs := uptime }
    else s
  else s

end FlexitCs60.Slave
