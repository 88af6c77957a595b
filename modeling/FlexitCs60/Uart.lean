import FlexitCs60.Zephyr
import Mathlib.Data.List.Basic

/-! `rs485_uart_send` as a function of what the UART driver does with the
frame. The driver's answers are inputs, one record for each transmission. -/
namespace FlexitCs60

/-- What the sender's bounded wait for the completion event sees. -/
inductive TxCompletion where
  | done
  | aborted
  | timeout
  deriving DecidableEq, Repr

structure Transmission where
  ready : Bool
  /-- Return value of `uart_tx`. -/
  txErr : Int
  completion : TxCompletion
  deriving DecidableEq, Repr

/-- Return value, and the frame echoed to the BLE stream if there is one. -/
def rs485UartSend (tx : Transmission) (frame : List UInt8) : Int × Option (List UInt8) :=
  if frame.length = 0 then (-EINVAL, none)
  else if !tx.ready then (-ENODEV, none)
  else if tx.txErr ≠ 0 then (tx.txErr, none)
  else
    match tx.completion with
    | .timeout => (-ETIMEDOUT, none)
    | .aborted => (-ECANCELED, none)
    | .done => (0, some frame)

/-- A transmission that nothing disturbs. -/
def Transmission.ok : Transmission := ⟨true, 0, .done⟩

/-- The driver takes the frame and reports it done. -/
def Transmission.Sends (tx : Transmission) : Prop :=
  tx.ready = true ∧ tx.txErr = 0 ∧ tx.completion = .done

instance (tx : Transmission) : Decidable tx.Sends :=
  inferInstanceAs (Decidable (tx.ready = true ∧ tx.txErr = 0 ∧ tx.completion = .done))

/-- The call succeeds exactly when the driver took the whole frame and reported
it done; each of the five error exits returns a nonzero value. -/
theorem rs485UartSend_eq_zero (tx : Transmission) (frame : List UInt8) :
    (rs485UartSend tx frame).1 = 0 ↔ frame ≠ [] ∧ tx.Sends := by
  unfold rs485UartSend Transmission.Sends
  cases frame with
  | nil => simp [EINVAL]
  | cons head tail =>
    cases tx with
    | mk ready txErr completion =>
      cases ready <;> by_cases txErr = 0 <;> cases completion <;>
        simp_all [ENODEV, ETIMEDOUT, ECANCELED]

end FlexitCs60
