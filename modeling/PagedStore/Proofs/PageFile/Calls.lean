import PagedStore.Proofs.PageFile

/-! Files of pages in use: what each call changes, and what any calls leave in every page. -/
namespace PagedStore.MeteredFile
open PageFile

inductive Call where
  | read (page : PageId) (length : Nat)
  | write (page : PageId) (image : List UInt8)
  | append

/-- What is answered: the bytes read, whether a page was written, or the number of the page added, if one was. -/
inductive Answer where
  | read (result : Except Fault (List UInt8))
  | written (result : Except Fault Unit)
  | added (number : Option Nat)

def Answer.Fails : Answer → Prop
  | read (.error _) => True
  | written (.error _) => True
  | added none => True
  | _ => False

def perform (m : MeteredFile) : Call → Answer × MeteredFile
  | .read page length => (.read (m.read page length).1, (m.read page length).2)
  | .write page image => (.written (m.write page image).1, (m.write page image).2)
  | .append =>
    match m.append with
    | some (number, m) => (.added (some number), m)
    | none => (.added none, m)

def performAll (m : MeteredFile) : List Call → List (Call × Answer) × MeteredFile
  | [] => ([], m)
  | call :: calls =>
    let (answer, m) := m.perform call
    let (log, last) := performAll m calls
    ((call, answer) :: log, last)

/-- Whether every page of a file has a number of its own, and the length of the file is a word. -/
structure Sized (m : MeteredFile) : Prop where
  pages_lt : m.file.pages < 4294967296
  length_lt : m.file.content.length < 18446744073709551616

def Numbered (m : MeteredFile) : List Call → Prop
  | [] => True
  | call :: calls => m.Sized ∧ Numbered (m.perform call).2 calls

/-- The image that a call has put in the page of a number, if it has done so. A page that is added is put there
as zeros. -/
def put? (pageSize number : Nat) : Call × Answer → Option (List UInt8)
  | (.write page image, .written (.ok ())) => if page.number = number then some image else none
  | (.append, .added (some added)) => if added = number then some (List.replicate pageSize 0) else none
  | _ => none

def latest? (pageSize number : Nat) : List (Call × Answer) → Option (List UInt8)
  | [] => none
  | entry :: later => (latest? pageSize number later).or (put? pageSize number entry)

/-! ### Words -/

section Words
variable {m : MeteredFile}

private theorem offset_eq (sized : m.Sized) {number : Nat} (reached : number ≤ m.file.pages) :
    m.offset number = m.file.offset number := by
  refine Nat.mod_eq_of_lt (Nat.lt_of_le_of_lt ?_ sized.length_lt)
  exact Nat.le_trans (Nat.mul_le_mul_right _ reached) (Nat.div_mul_le_self _ _)

private theorem read_eq {page : PageId} (word : (page.number + 1) * m.file.pageSize < 18446744073709551616)
    (length : Nat) : m.read page length = (m.file.read page length,
      if m.file.contains page.number then { m with reads := m.reads + 1 } else m) := by
  rw [Nat.succ_mul] at word
  have place : m.offset page.number = m.file.offset page.number :=
    Nat.mod_eq_of_lt (Nat.lt_of_le_of_lt (Nat.le_add_right _ _) word)
  have reaches : m.reaches page.number = m.file.contains page.number := by
    rw [MeteredFile.reaches, place, PageFile.contains, PageFile.offset, Nat.mod_eq_of_lt word]
  rw [read, reaches, place, PageFile.read]
  split <;> rfl

private theorem write_eq (sized : m.Sized) (page : PageId) (image : List UInt8) :
    (∃ fault, m.file.write page image = .error fault ∧ m.write page image = (.error fault, m)) ∨
    ∃ after, m.file.write page image = .ok after ∧
      m.write page image = (.ok (), { m with file := after, writes := m.writes + 1 }) := by
  rw [write, PageFile.write]
  split
  · exact .inl ⟨_, rfl, rfl⟩
  · split
    · exact .inl ⟨_, rfl, rfl⟩
    · rename_i reached
      refine .inr ⟨_, rfl, ?_⟩
      simp only [offset_eq sized (Nat.le_of_not_lt reached)]
      rfl

private theorem append_eq (sized : m.Sized) : m.append =
    if m.file.pageSize < 9223372036854775808 then some (m.file.append.1, { m with file := m.file.append.2 })
    else none := by
  rw [append, pageNumber_of_lt sized.pages_lt, offset_eq sized (Nat.le_refl _), PageFile.append,
    pageNumber_of_lt sized.pages_lt]
  rfl

end Words

section Steps
variable (m : MeteredFile)

@[simp] theorem file_read (page : PageId) (length : Nat) : (m.read page length).2.file = m.file := by
  rw [read]
  split <;> rfl

variable {m}

private theorem pageSize_perform (call : Call) : (m.perform call).2.file.pageSize = m.file.pageSize := by
  cases call with
  | read page length => rw [perform, file_read]
  | write page image =>
    simp only [perform, write]
    split
    · rfl
    · split <;> rfl
  | append =>
    simp only [perform, append]
    split
    · rename_i added
      split at added
      · cases added
        rfl
      · cases added
    · rfl

private theorem file_of_fails {call : Call} (failed : (m.perform call).1.Fails) :
    (m.perform call).2.file = m.file := by
  cases call with
  | read page length => exact m.file_read page length
  | write page image =>
    simp only [perform, write] at failed ⊢
    split
    · rfl
    · rename_i long
      rw [if_neg long] at failed
      split
      · rfl
      · rename_i reached
        rw [if_neg reached] at failed
        exact failed.elim
  | append =>
    simp only [perform] at failed ⊢
    cases added : m.append with
    | none => rfl
    | some outcome =>
      rw [added] at failed
      exact failed.elim

/-- After a call the pages are as before but for the one that it has put an image in. -/
private theorem image?_perform (sized : m.Sized) (call : Call) (number : Nat) :
    (m.perform call).2.file.image? number =
      (put? m.file.pageSize number (call, (m.perform call).1)).or (m.file.image? number) := by
  cases call with
  | read page length =>
    rw [perform, file_read]
    rfl
  | write page image =>
    rw [perform]
    rcases write_eq sized page image with ⟨fault, -, he⟩ | ⟨after, written, he⟩
    · rw [he]
      rfl
    · obtain ⟨long, reached, -⟩ := m.file.write_eq_ok_iff.mp written
      rw [he, put?, (placed_of_write written).image?_eq reached long]
      by_cases here : number = page.number
      · rw [if_pos here, if_pos here.symm]
        rfl
      · rw [if_neg here, if_neg (Ne.symm here)]
        rfl
  | append =>
    rw [perform, append_eq sized]
    by_cases storable : m.file.pageSize < 9223372036854775808
    · obtain ⟨added, placed⟩ := placed_append sized.pages_lt
      have long : (List.replicate m.file.pageSize (0 : UInt8)).length = m.file.pageSize := List.length_replicate
      have image := placed.image?_eq (Nat.le_refl _) long number
      rw [if_pos storable]
      simp only [put?, added]
      refine image.trans ?_
      by_cases here : number = m.file.pages
      · rw [if_pos here, if_pos here.symm]
        rfl
      · rw [if_neg here, if_neg (Ne.symm here)]
        rfl
    · rw [if_neg storable]
      rfl

/-- After any calls each page has the image that was put there last, or else is as it was. -/
private theorem image?_performAll {calls : List Call} (numbered : m.Numbered calls) (number : Nat) :
    (m.performAll calls).2.file.pageSize = m.file.pageSize ∧
    (m.performAll calls).2.file.image? number =
      (latest? m.file.pageSize number (m.performAll calls).1).or (m.file.image? number) := by
  induction calls generalizing m with
  | nil => exact ⟨rfl, rfl⟩
  | cons call calls ih =>
    obtain ⟨sized, numbered⟩ := numbered
    obtain ⟨size, later⟩ := ih numbered
    rw [pageSize_perform call] at size later
    refine ⟨size, later.trans ?_⟩
    rw [image?_perform sized, ← Option.or_assoc]
    rfl

end Steps

/-! ### Files as arrays of pages -/

/-- Whether bytes are those of a file from the start of a page on, up to a length or to the end of the file. -/
structure Shown (f : PageFile) (number length : Nat) (bytes : List UInt8) : Prop where
  length_eq : bytes.length = min length (f.content.length - number * f.pageSize)
  getElem?_eq : ∀ i < bytes.length, bytes[i]? = some (f.content.byte (number * f.pageSize + i))

/-- Whether a file answers as an array of pages does: which calls it takes, what they change and what they show. It
adds pages that may be a row of bytes in memory, and tells pages apart whose ends are words. -/
structure AsArray (m : MeteredFile) : Prop where
  write_iff : ∀ page image, (m.write page image).1 = .ok () ↔
    image.length = m.file.pageSize ∧ page.number ≤ m.file.pages
  written : ∀ page image, (m.write page image).1 = .ok () →
    Placed m.file (m.write page image).2.file page.number image
  added : m.file.pageSize < 9223372036854775808 → ∃ after, m.append = some (m.file.pages, after) ∧
    Placed m.file after.file m.file.pages (List.replicate m.file.pageSize 0) ∧
    after.file.content.length = (m.file.pages + 1) * m.file.pageSize
  read_iff : ∀ page length, (page.number + 1) * m.file.pageSize < 18446744073709551616 →
    ((∃ bytes, (m.read page length).1 = .ok bytes) ↔
      page.number < m.file.pages ∧ m.file.pageSize ≤ length)
  shown : ∀ page length bytes, (page.number + 1) * m.file.pageSize < 18446744073709551616 →
    (m.read page length).1 = .ok bytes → Shown m.file page.number length bytes
  unchanged : ∀ call, (m.perform call).1.Fails → (m.perform call).2.file = m.file

private theorem asArray {m : MeteredFile} (sized : m.Sized) : m.AsArray := by
  have written_iff (page : PageId) (image : List UInt8) : (m.write page image).1 = .ok () ↔
      m.file.write page image = .ok (m.write page image).2.file := by
    rcases write_eq sized page image with ⟨fault, failed, he⟩ | ⟨after, written, he⟩
    · rw [he, failed]
      exact ⟨fun h => (nomatch h), fun h => (nomatch h)⟩
    · rw [he, written]
      exact ⟨fun _ => rfl, fun _ => rfl⟩
  refine ⟨fun page image => ?write, fun page image h => placed_of_write ((written_iff page image).mp h),
    fun storable => ?added, fun page length word => ?read, fun page length bytes word h => ?shown,
    fun call => file_of_fails⟩
  case write =>
    rw [written_iff]
    constructor
    · intro h
      obtain ⟨long, reached, -⟩ := m.file.write_eq_ok_iff.mp h
      exact ⟨long, reached⟩
    · rintro ⟨long, reached⟩
      have h := m.file.write_eq_ok_iff.mpr ⟨long, reached, rfl⟩
      rcases write_eq sized page image with ⟨fault, failed, -⟩ | ⟨after, written, he⟩
      · rw [failed] at h
        cases h
      · rw [he, written]
  case added =>
    obtain ⟨number, placed⟩ := placed_append sized.pages_lt
    have ragged := m.file.length_lt_offset_pages
    rw [PageFile.offset, ← Nat.succ_mul] at ragged
    rw [append_eq sized, if_pos storable, number]
    exact ⟨_, rfl, placed, placed.length_eq.trans (Nat.max_eq_right (Nat.le_of_lt ragged))⟩
  case read =>
    rw [read_eq word]
    constructor
    · rintro ⟨bytes, h⟩
      obtain ⟨inside, long, -⟩ := m.file.read_eq_ok_iff.mp h
      exact ⟨inside, long⟩
    · rintro ⟨inside, long⟩
      exact ⟨_, m.file.read_eq_ok_iff.mpr ⟨inside, long, rfl⟩⟩
  case shown =>
    rw [read_eq word] at h
    obtain ⟨-, -, rfl⟩ := m.file.read_eq_ok_iff.mp h
    refine ⟨Content.length_read _ _ _, fun i here => ?_⟩
    rw [Content.length_read] at here
    rw [Content.getElem?_read, if_pos here]
    rfl

/-- Whatever is asked of a file, each call finds an array of pages. A page read afterwards is the image that was
put there last, where an added page is put as zeros, and a page where nothing was put is as it was at the start. -/
theorem pages_hold_last (start : MeteredFile) (calls : List Call) (numbered : start.Numbered calls) :
    let log := (start.performAll calls).1
    let m := (start.performAll calls).2
    m.file.pageSize = start.file.pageSize ∧ (m.Sized → m.AsArray) ∧
    ∀ page, (page.number + 1) * start.file.pageSize < 18446744073709551616 →
      (m.read page m.file.pageSize).1.toOption =
        (latest? start.file.pageSize page.number log).or
          (start.read page start.file.pageSize).1.toOption := by
  intro log m
  have size : m.file.pageSize = start.file.pageSize := (image?_performAll numbered 0).1
  refine ⟨size, asArray, fun page word => ?_⟩
  have image := (image?_performAll numbered page.number).2
  rw [read_eq (size.symm ▸ word), read_eq word]
  exact (m.file.toOption_read page).trans (image.trans (by rw [← start.file.toOption_read page]))

private def ragged : MeteredFile :=
  ⟨⟨2, .ofList [1, 2, 3, 4, 5], Nat.two_pos⟩, 0, 0⟩

theorem pages_hold_last_ragged :
    let calls : List Call := [.write ⟨1, 3⟩ [6, 7], .append, .write ⟨1, 2⟩ [8, 9], .append]
    let m := (ragged.performAll calls).2
    ragged.Numbered calls ∧ m.AsArray ∧ (m.read ⟨1, 1⟩ m.file.pageSize).1.toOption = some [3, 4] ∧
      (m.read ⟨1, 2⟩ m.file.pageSize).1.toOption = some [8, 9] ∧
      (m.read ⟨1, 3⟩ m.file.pageSize).1.toOption = some [0, 0] := by
  intro calls m
  have numbered : ragged.Numbered calls :=
    ⟨⟨by decide +kernel, by decide +kernel⟩, ⟨by decide +kernel, by decide +kernel⟩,
      ⟨by decide +kernel, by decide +kernel⟩, ⟨by decide +kernel, by decide +kernel⟩, trivial⟩
  obtain ⟨-, array, pages⟩ := pages_hold_last ragged calls numbered
  exact ⟨numbered, array ⟨by decide +kernel, by decide +kernel⟩,
    (pages ⟨1, 1⟩ (by decide +kernel)).trans (by decide +kernel),
    (pages ⟨1, 2⟩ (by decide +kernel)).trans (by decide +kernel),
    (pages ⟨1, 3⟩ (by decide +kernel)).trans (by decide +kernel)⟩

private def wide : MeteredFile :=
  ⟨⟨8589934592, (Content.empty.put 0 7).padTo 8589934592, by decide⟩, 0, 0⟩

private def vast : MeteredFile :=
  ⟨⟨9223372036854775808, .empty, by decide⟩, 0, 0⟩

/-- A page far behind the end of a file starts at zero as a word, so that the first page is read in its place; and
no page is added that is too long. -/
theorem page_read_behind_end :
    wide.Sized ∧ wide.file.pages = 1 ∧
    (∃ bytes, (wide.read ⟨1, 2147483648⟩ wide.file.pageSize).1 = .ok bytes ∧ bytes.head? = some 7) ∧
    vast.Sized ∧ vast.append = none := by
  have long : wide.file.content.length = 8589934592 := rfl
  have one : wide.file.pages = 1 := Nat.div_self (by decide : 0 < 8589934592)
  have start : wide.offset 2147483648 = 0 := rfl
  have reaches : wide.reaches 2147483648 = true := by
    rw [MeteredFile.reaches, start, long]
    rfl
  have whole : ¬ (wide.file.content.read 0 wide.file.pageSize).length < wide.file.pageSize := by
    rw [Content.length_read, long]
    exact Nat.lt_irrefl _
  refine ⟨⟨one ▸ by decide, long ▸ by decide⟩, one, ⟨wide.file.content.read 0 wide.file.pageSize, ?_, ?_⟩,
    ⟨by decide +kernel, by decide +kernel⟩, rfl⟩
  · rw [read, if_pos reaches]
    simp only [start, if_neg whole]
  · rw [List.head?_eq_getElem?, Content.getElem?_read, if_pos (by rw [long]; decide)]
    rfl

end PagedStore.MeteredFile
