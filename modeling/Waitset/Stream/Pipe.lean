/-
# Waitset.Stream.Pipe -- a bounded queue of bytes with two ends

A pipe keeps its bytes in at most sixteen pages of 4096 bytes.  A write first tops up the last page
when the odd bytes of its length fit behind the bytes that are there, and puts the rest into new
pages; a read takes bytes from the first page and gives a page back once it is used up.  So a pipe
has room for a write exactly while a page is free, and `contents` is a first-in first-out queue.
-/
import Waitset.Bytes

namespace Waitset

/-- A page of a pipe: bytes that have been read from it, and bytes that are still there. -/
structure Page where
  used : Nat
  bytes : Bytes
  deriving DecidableEq, Repr

namespace Page

/-- The size of a page. -/
def size : Nat := 4096

/-- The room behind the bytes of a page. -/
def room (page : Page) : Nat := size - (page.used + page.bytes.length)

end Page

/-- A pipe. -/
structure Pipe where
  pages : List Page := []
  readerOpen : Bool := true
  writerOpen : Bool := true
  deriving DecidableEq, Repr

namespace Pipe

/-- How many pages a pipe may hold. -/
def maxPages : Nat := 16

/-- The bytes that have been written and not yet read. -/
def contents (p : Pipe) : Bytes := p.pages.flatMap (·.bytes)

/-- Whether every page is in use. -/
def isFull (p : Pipe) : Bool := decide (maxPages ≤ p.pages.length)

/-! ## Reading -/

/-- Takes up to `n` bytes from the pages. -/
def takeFrom (n : Nat) : List Page → Bytes × List Page
  | [] => ([], [])
  | page :: rest =>
    if n < page.bytes.length then
      (page.bytes.take n, ⟨page.used + n, page.bytes.drop n⟩ :: rest)
    else
      let later := takeFrom (n - page.bytes.length) rest
      (page.bytes ++ later.1, later.2)

/-- Takes up to `n` bytes. -/
def take (n : Nat) (p : Pipe) : Pipe × Bytes :=
  let taken := takeFrom n p.pages
  ({ p with pages := taken.2 }, taken.1)

/-! ## Writing -/

/-- Puts `bytes` behind the bytes of the last page. -/
def topUpLast (bytes : Bytes) : List Page → List Page
  | [] => []
  | [page] => [⟨page.used, page.bytes ++ bytes⟩]
  | page :: rest => page :: topUpLast bytes rest

/-- Puts bytes into up to `free` new pages; answers the pages and what did not fit. -/
def fillPages : Nat → Bytes → List Page × Bytes
  | 0, bytes => ([], bytes)
  | _ + 1, [] => ([], [])
  | free + 1, byte :: bytes =>
    let later := fillPages free ((byte :: bytes).drop Page.size)
    (⟨0, (byte :: bytes).take Page.size⟩ :: later.1, later.2)

/-- How many bytes of a write of `length` bytes go behind the last page: the odd ones, if there is
room for all of them. -/
def topUpLength (length : Nat) (p : Pipe) : Nat :=
  match p.pages.getLast? with
  | none => 0
  | some page => if length % Page.size ≤ page.room then length % Page.size else 0

/-- Adds as many bytes as fit, and answers how many that were. -/
def append (bytes : Bytes) (p : Pipe) : Pipe × Nat :=
  let n := p.topUpLength bytes.length
  let topped := topUpLast (bytes.take n) p.pages
  let filled := fillPages (maxPages - topped.length) (bytes.drop n)
  ({ p with pages := topped ++ filled.1 }, bytes.length - filled.2.length)

/-! ## A pipe is a queue -/

end Pipe

end Waitset
