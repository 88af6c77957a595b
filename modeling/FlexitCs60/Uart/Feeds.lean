import FlexitCs60.Mirror.Framing
import FlexitCs60.Slave.Framing
import FlexitCs60.Stream.Checked

/-! Both readers of the received bytes, whatever their accumulators hold and
however long the chunk is. -/
namespace FlexitCs60.Uart
open Framing Accumulator

/-- With any contents of its accumulator, a call of either reader on a chunk of any
length stays inside the arrays, wraps no size, ends, and leaves less than a frame. -/
theorem feeds_safe [Zephyr] :
    (∀ (clock : Mirror.Clock) (a : Accumulator UInt8 Mirror.accumSize) (s : Mirror.Traced)
      (data : List UInt8), a.len ≤ Mirror.accumSize → data ≠ [] → data.length < 2 ^ 32 →
        Safe (Mirror.tryDecodeAtFront clock) 178 a s data
          (Mirror.panelMirrorFeed clock (a, s) data)) ∧
    ∀ (env : Slave.Env) (a : Accumulator UInt8 Slave.accumSize) (s : Slave.Traced)
      (data : List UInt8), a.len ≤ Slave.accumSize → data ≠ [] → data.length < 2 ^ 32 →
        Safe (Slave.tryDecodeAtFront env) 7 a s data (Slave.flexitSlaveFeed env (a, s) data) := by
  constructor
  · intro clock a s data bounded nonempty size
    exact feed_safe (Mirror.tryDecodeAtFront_local clock) (Mirror.matcher_follows clock) (by decide)
      Mirror.residual_length bounded s nonempty size
  · intro env a s data bounded nonempty size
    exact feed_safe (Slave.tryDecodeAtFront_local env) (Slave.matcher_follows env) (by decide)
      Slave.residual_length bounded s nonempty size

/-- Chunks that are one byte too long for what is left of the accumulators. -/
theorem feeds_safe_overflow :
    Safe (Mirror.tryDecodeAtFront fun _ => 0) 178 ⟨Vector.replicate 256 0, 200⟩
      ⟨Mirror.initial, []⟩ (List.replicate 57 0xFF)
      (Mirror.panelMirrorFeed (fun _ => 0) (⟨Vector.replicate 256 0, 200⟩, ⟨Mirror.initial, []⟩)
        (List.replicate 57 0xFF)) ∧
    Safe (Slave.tryDecodeAtFront ⟨fun _ => 0, fun _ => .ok⟩) 7 ⟨Vector.replicate 64 0, 60⟩
      ⟨Slave.flexitSlaveInit, []⟩ (List.replicate 5 0xFF)
      (Slave.flexitSlaveFeed ⟨fun _ => 0, fun _ => .ok⟩
        (⟨Vector.replicate 64 0, 60⟩, ⟨Slave.flexitSlaveInit, []⟩) (List.replicate 5 0xFF)) :=
  ⟨feeds_safe.1 _ _ _ _ (by decide) (by decide) (by decide),
    feeds_safe.2 _ _ _ _ (by decide) (by decide) (by decide)⟩

end FlexitCs60.Uart
