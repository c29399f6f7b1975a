import PagedStore.Content
import PagedStore.Fault

/-!
Files of equally sized pages. A file may end in a part of a page; that part is no page, and stays
until a page is written over it.
-/
namespace PagedStore

structure PageFile where
  pageSize : Nat
  content : Content
  pageSize_pos : 0 < pageSize

namespace PageFile

def ofContent? (pageSize : Nat) (content : Content) : Option PageFile :=
  if h : 0 < pageSize then some ⟨pageSize, content, h⟩ else none

def pages (f : PageFile) : Nat :=
  f.content.length / f.pageSize

def offset (f : PageFile) (number : Nat) : Nat :=
  number * f.pageSize

def contains (f : PageFile) (number : Nat) : Bool :=
  f.offset number + f.pageSize ≤ f.content.length

/-- Up to the given number of bytes from the start of a page on, which must be at least a page. -/
def read (f : PageFile) (page : PageId) (length : Nat) : Except Fault (List UInt8) :=
  if f.contains page.number then
    let bytes := f.content.read (f.offset page.number) length
    if bytes.length < f.pageSize then .error (.shortRead page bytes.length f.pageSize)
    else .ok bytes
  else .error (.beyondEnd page f.pages)

def write (f : PageFile) (page : PageId) (image : List UInt8) : Except Fault PageFile :=
  if image.length ≠ f.pageSize then .error (.imageSize page image.length f.pageSize)
  else if f.pages < page.number then .error (.beyondEnd page f.pages)
  else .ok { f with content := f.content.overwrite (f.offset page.number) image }

/-- Adds a page of zeros after the last page, and returns its number. Where the numbers begin again,
the page of that number becomes zero instead. -/
def append (f : PageFile) : Nat × PageFile :=
  let number := pageNumber f.pages
  let start := f.offset number
  let stop := start + f.pageSize
  (number, { f with content := (f.content.clear start stop).padTo stop })

end PageFile

/-- A file of pages with the numbers of its reads and writes. A read counts if the page is there,
also if it asks for less than a page. Adding a page is no write. Where a page starts and ends is reckoned in words of
64 bits. -/
structure MeteredFile where
  file : PageFile
  reads : Nat
  writes : Nat

namespace MeteredFile

def offset (m : MeteredFile) (number : Nat) : Nat :=
  m.file.offset number % 18446744073709551616

def reaches (m : MeteredFile) (number : Nat) : Bool :=
  (m.offset number + m.file.pageSize) % 18446744073709551616 ≤ m.file.content.length

def read (m : MeteredFile) (page : PageId) (length : Nat) :
    Except Fault (List UInt8) × MeteredFile :=
  if m.reaches page.number then
    let bytes := m.file.content.read (m.offset page.number) length
    (if bytes.length < m.file.pageSize then .error (.shortRead page bytes.length m.file.pageSize)
      else .ok bytes, { m with reads := m.reads + 1 })
  else (.error (.beyondEnd page m.file.pages), m)

def put (m : MeteredFile) (content : Content) : MeteredFile :=
  { m with file := { m.file with content := content } }

def write (m : MeteredFile) (page : PageId) (image : List UInt8) : Except Fault Unit × MeteredFile :=
  if image.length ≠ m.file.pageSize then (.error (.imageSize page image.length m.file.pageSize), m)
  else if m.file.pages < page.number then (.error (.beyondEnd page m.file.pages), m)
  else
    let content := m.file.content.overwrite (m.offset page.number) image
    (.ok (), { m.put content with writes := m.writes + 1 })

def append (m : MeteredFile) : Option (Nat × MeteredFile) :=
  let number := pageNumber m.file.pages
  let start := m.offset number
  let stop := start + m.file.pageSize
  if m.file.pageSize < 9223372036854775808 then
    some (number, m.put ((m.file.content.clear start stop).padTo stop))
  else none

end MeteredFile

end PagedStore
