/-
# Waitset.Stream.Memory -- bytes in memory with a read cursor

Reads take bytes from the cursor on and report the end as soon as nothing is left behind them; writes
append.  A memory stream has no descriptor, so nothing can wait for it.
-/
import Waitset.Bytes

namespace Waitset

/-- A stream in memory. -/
structure MemoryStream where
  data : Bytes := []
  position : Nat := 0
  deriving DecidableEq, Repr

namespace MemoryStream

/-- How many bytes have not been read. -/
def remaining (m : MemoryStream) : Nat := m.data.length - m.position

/-- Reads up to `n` bytes: the stream behind them, the bytes, and whether they are the last. -/
def read (n : Nat) (m : MemoryStream) : MemoryStream × Bytes × Bool :=
  let count := min n m.remaining
  ({ m with position := m.position + count }, (m.data.drop m.position).take count,
    m.position + count == m.data.length)

/-- Appends bytes; all of them fit. -/
def write (bytes : Bytes) (m : MemoryStream) : MemoryStream := { m with data := m.data ++ bytes }

/-! ## Small laws -/

@[simp] theorem data_read (n : Nat) (m : MemoryStream) : (m.read n).1.data = m.data := rfl

@[simp] theorem data_write (bytes : Bytes) (m : MemoryStream) :
    (m.write bytes).data = m.data ++ bytes := rfl

@[simp] theorem position_write (bytes : Bytes) (m : MemoryStream) :
    (m.write bytes).position = m.position := rfl

/-- A read moves the cursor over the bytes that it took. -/
theorem position_read (n : Nat) (m : MemoryStream) :
    (m.read n).1.position = m.position + (m.read n).2.1.length := by
  simp only [read, remaining, List.length_take, List.length_drop]
  omega

/-- A read takes as many bytes as were asked for, or all that are left. -/
theorem length_read (n : Nat) (m : MemoryStream) :
    (m.read n).2.1.length = min n m.remaining := by
  simp only [read, remaining, List.length_take, List.length_drop]
  omega

/-- A cursor within the data stays within the data. -/
theorem position_read_le {m : MemoryStream} (n : Nat) (h : m.position ≤ m.data.length) :
    (m.read n).1.position ≤ (m.read n).1.data.length := by
  simp only [read, remaining]
  omega

end MemoryStream

end Waitset
