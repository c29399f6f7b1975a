import Mathlib.Data.List.Induction
import PagedStore.Proofs.Cache.Recency

/-! Which pages may leave, and in which order, as told by what was asked and answered before: those that were
touched after they were last taken out, in the order of their last touches. -/
namespace PagedStore.Recency

inductive Call where
  | access (page : PageId)
  | pin (page : PageId)
  | unpin (page : PageId)
  | forget (page : PageId)
  | victim

/-- What is noted of a call. Of the last kind it is the page that was taken out to leave, if there was one. -/
inductive Entry where
  | access (page : PageId)
  | pin (page : PageId)
  | unpin (page : PageId)
  | forget (page : PageId)
  | victim (left : Option PageId)
deriving DecidableEq

def Entry.page? : Entry → Option PageId
  | access page | pin page | unpin page | forget page => some page
  | victim left => left

def Entry.others (entry : Entry) (pages : List PageId) : List PageId :=
  pages.filter fun page => entry.page? ≠ some page

def perform (r : Recency) : Call → Entry × Recency
  | .access page => (.access page, r.access page)
  | .pin page => (.pin page, r.pin page)
  | .unpin page => (.unpin page, r.unpin page)
  | .forget page => (.forget page, r.forget page)
  | .victim => (.victim r.victim.1, r.victim.2)

/-- The pages that may leave, with all that was noted before, latest entry first. -/
structure Noted where
  past : List Entry
  recency : Recency

def Noted.next (n : Noted) (call : Call) : Noted :=
  ⟨(n.recency.perform call).1 :: n.past, (n.recency.perform call).2⟩

def noted (calls : List Call) : Noted :=
  calls.foldl Noted.next ⟨[], empty⟩

private theorem noted_concat (calls : List Call) (call : Call) :
    noted (calls ++ [call]) = (noted calls).next call := by
  rw [noted, List.foldl_append]
  rfl

/-! ### Times -/

/-- The time of the latest entry of a kind, where the first entry has time one, or zero if there is none. The
kind may depend on what was noted before. -/
def latest (kind : List Entry → Entry → Bool) : List Entry → Nat
  | [] => 0
  | entry :: past => if kind past entry then past.length + 1 else latest kind past

private theorem latest_le (kind : List Entry → Entry → Bool) (past : List Entry) :
    latest kind past ≤ past.length := by
  induction past with
  | nil => exact Nat.le_refl 0
  | cons entry past ih =>
    rw [latest, List.length_cons]
    split <;> omega

/-- One of two kinds that exclude each other is the later one after an entry if the entry is of that kind, or not
of the other kind and it was later before. -/
private theorem latest_lt_cons_iff {kind other : List Entry → Entry → Bool} {past : List Entry} {entry : Entry}
    (apart : kind past entry → other past entry = false) :
    latest other (entry :: past) < latest kind (entry :: past) ↔
      kind past entry ∨ other past entry = false ∧ latest other past < latest kind past := by
  have := latest_le other past
  have := latest_le kind past
  rw [latest, latest]
  cases of_kind : kind past entry with
  | true =>
    rw [apart of_kind, if_pos rfl, if_neg Bool.false_ne_true]
    exact iff_of_true (by omega) (.inl rfl)
  | false =>
    rw [if_neg Bool.false_ne_true, or_iff_right Bool.false_ne_true]
    cases other past entry with
    | true =>
      rw [if_pos rfl]
      exact iff_of_false (by omega) fun both => Bool.false_ne_true both.1.symm
    | false => rw [if_neg Bool.false_ne_true, and_iff_right rfl]

section History
variable (past : List Entry) (page : PageId)

def Pinned : Prop :=
  latest (fun _ entry => entry = .unpin page ∨ entry = .forget page) past <
    latest (fun _ entry => entry = .pin page) past

instance : Decidable (Pinned past page) :=
  inferInstanceAs (Decidable (_ < _))

/-- Whether an entry touches a page: it unpins it, or notes a use of it while it is not pinned. -/
def Touches (entry : Entry) : Prop :=
  entry = .unpin page ∨ entry = .access page ∧ ¬ Pinned past page

instance (entry : Entry) : Decidable (Touches past page entry) :=
  inferInstanceAs (Decidable (_ ∨ _))

/-- Whether an entry takes a page out of those that may leave: it pins or forgets it, or lets it leave. -/
def TakesOut (entry : Entry) : Prop :=
  entry = .pin page ∨ entry = .forget page ∨ entry = .victim (some page)

instance (entry : Entry) : Decidable (TakesOut page entry) :=
  inferInstanceAs (Decidable (_ ∨ _))

def lastTouch : Nat :=
  latest (fun past entry => Touches past page entry) past

def lastTakenOut : Nat :=
  latest (fun _ entry => TakesOut page entry) past

def MayLeave : Prop :=
  lastTakenOut past page < lastTouch past page

/-- Whether a page is the one that may leave and was last touched before all others that may. -/
structure Oldest : Prop where
  may : MayLeave past page
  first : ∀ other, MayLeave past other → other ≠ page → lastTouch past page < lastTouch past other

end History

section Entries
variable {past : List Entry} {page : PageId} {entry : Entry}

private theorem pinned_cons_iff : Pinned (entry :: past) page ↔
    entry = .pin page ∨ (entry ≠ .unpin page ∧ entry ≠ .forget page) ∧ Pinned past page := by
  rw [Pinned, latest_lt_cons_iff fun pins => by simp [of_decide_eq_true pins]]
  simp only [decide_eq_true_eq, decide_eq_false_iff_not, not_or]
  rfl

private theorem page?_of_touches (touches : Touches past page entry) : entry.page? = some page := by
  rcases touches with rfl | ⟨rfl, -⟩ <;> rfl

private theorem page?_of_takesOut (takesOut : TakesOut page entry) : entry.page? = some page := by
  rcases takesOut with rfl | rfl | rfl <;> rfl

private theorem not_takesOut (touches : Touches past page entry) : ¬ TakesOut page entry := by
  rcases touches with rfl | ⟨rfl, -⟩ <;> simp [TakesOut]

private theorem lastTouch_of_touches (touches : Touches past page entry) :
    lastTouch (entry :: past) page = past.length + 1 := by
  rw [lastTouch, latest, if_pos (decide_eq_true touches)]

private theorem lastTouch_of_not_touches (untouched : ¬ Touches past page entry) :
    lastTouch (entry :: past) page = lastTouch past page := by
  rw [lastTouch, latest, if_neg (by simpa using untouched), lastTouch]

private theorem mayLeave_cons_iff : MayLeave (entry :: past) page ↔
    Touches past page entry ∨ ¬ TakesOut page entry ∧ MayLeave past page := by
  rw [MayLeave, lastTakenOut, lastTouch, latest_lt_cons_iff]
  · simp only [decide_eq_true_eq, decide_eq_false_iff_not]
    rfl
  · exact fun touches => decide_eq_false (not_takesOut (of_decide_eq_true touches))

end Entries

/-! ### The order -/

/-- Whether pages are those that may leave, in the order of their last touches. -/
structure InOrder (past : List Entry) (order : List PageId) : Prop where
  mem_iff : ∀ page, page ∈ order ↔ MayLeave past page
  ascending : order.Pairwise fun older newer => lastTouch past older < lastTouch past newer

namespace InOrder
variable {past : List Entry} {order : List PageId}

private theorem nil : InOrder [] [] where
  mem_iff _ := iff_of_false List.not_mem_nil (Nat.lt_irrefl 0)
  ascending := .nil

variable (h : InOrder past order) {entry : Entry} {page : PageId}
include h

private theorem nodup : order.Nodup :=
  h.ascending.imp fun {older newer} before (same : older = newer) => Nat.lt_irrefl _ (same ▸ before)

/-- No other pages are those that may leave, and in no other order. -/
theorem eq_order {pages : List PageId} (h' : InOrder past pages) : pages = order := by
  have same : pages.Perm order := (List.perm_ext_iff_of_nodup h'.nodup h.nodup).mpr fun page =>
    (h'.mem_iff page).trans (h.mem_iff page).symm
  exact same.eq_of_pairwise (fun _ _ _ _ before after => absurd after (Nat.lt_asymm before))
    h'.ascending h.ascending

private theorem ascending_cons {pages : List PageId} (sublist : pages.Sublist order)
    (untouched : ∀ other ∈ pages, ¬ Touches past other entry) : pages.Pairwise fun older newer =>
      lastTouch (entry :: past) older < lastTouch (entry :: past) newer :=
  (h.ascending.sublist sublist).imp_of_mem fun {older newer} listed listed' before => by
    rwa [lastTouch_of_not_touches (untouched older listed), lastTouch_of_not_touches (untouched newer listed')]

private theorem still (untouched : ∀ page, ¬ Touches past page entry) (kept : ∀ page, ¬ TakesOut page entry) :
    InOrder (entry :: past) order where
  mem_iff page := by rw [h.mem_iff, mayLeave_cons_iff, or_iff_right (untouched page), and_iff_right (kept page)]
  ascending := h.ascending_cons (List.Sublist.refl _) fun other _ => untouched other

private theorem takeOut (takesOut : TakesOut page entry) : InOrder (entry :: past) (order.erase page) := by
  have only {other : PageId} (about : entry.page? = some other) : other = page :=
    Option.some.inj (about.symm.trans (page?_of_takesOut takesOut))
  have untouched (other : PageId) : ¬ Touches past other entry := fun touches =>
    not_takesOut touches (only (page?_of_touches touches) ▸ takesOut)
  refine ⟨fun other => ?_, h.ascending_cons List.erase_sublist fun other _ => untouched other⟩
  rw [h.nodup.mem_erase_iff, h.mem_iff, mayLeave_cons_iff, or_iff_right (untouched other)]
  refine and_congr_left fun _ => not_congr ⟨?_, fun out => only (page?_of_takesOut out)⟩
  rintro rfl
  exact takesOut

private theorem touch (touches : Touches past page entry) :
    InOrder (entry :: past) (order.erase page ++ [page]) := by
  have only {other : PageId} (about : entry.page? = some other) : other = page :=
    Option.some.inj (about.symm.trans (page?_of_touches touches))
  have others : ∀ other ∈ order.erase page, ¬ Touches past other entry := fun other listed touched =>
    (h.nodup.mem_erase_iff.mp listed).1 (only (page?_of_touches touched))
  refine ⟨fun other => ?_, List.pairwise_append.mpr
    ⟨h.ascending_cons List.erase_sublist others, List.pairwise_singleton _ _, ?_⟩⟩
  · rw [List.mem_append, List.mem_singleton, h.nodup.mem_erase_iff, mayLeave_cons_iff]
    by_cases same : other = page
    · subst same
      exact iff_of_true (.inr rfl) (.inl touches)
    · rw [or_iff_left same, and_iff_right same, h.mem_iff,
        or_iff_right fun touched => same (only (page?_of_touches touched)),
        and_iff_right fun out => same (only (page?_of_takesOut out))]
  · -- All others were touched before this entry.
    intro other listed last same
    rw [List.mem_singleton.mp same, lastTouch_of_touches touches, lastTouch_of_not_touches (others other listed)]
    exact Nat.lt_succ_of_le (latest_le _ past)

private theorem head?_eq_some_iff (page : PageId) : order.head? = some page ↔ Oldest past page := by
  constructor
  · intro first
    obtain ⟨others, rfl⟩ := List.head?_eq_some_iff.mp first
    obtain ⟨older, -⟩ := List.pairwise_cons.mp h.ascending
    refine ⟨(h.mem_iff page).mp List.mem_cons_self, fun other may different => ?_⟩
    exact older other (List.mem_of_ne_of_mem different ((h.mem_iff other).mpr may))
  · intro oldest
    cases order with
    | nil => exact absurd ((h.mem_iff page).mpr oldest.may) List.not_mem_nil
    | cons first others =>
      obtain ⟨older, -⟩ := List.pairwise_cons.mp h.ascending
      by_contra different
      have different : first ≠ page := fun same => different (congrArg some same)
      have before := oldest.first first ((h.mem_iff first).mp List.mem_cons_self) different
      have after := older page (List.mem_of_ne_of_mem different.symm ((h.mem_iff page).mpr oldest.may))
      exact Nat.lt_asymm before after

private theorem head?_eq_none_iff : order.head? = none ↔ ∀ page, ¬ MayLeave past page := by
  rw [List.head?_eq_none_iff, List.eq_nil_iff_forall_not_mem]
  exact forall_congr' fun page => not_congr (h.mem_iff page)

end InOrder

/-- Whether what was noted tells which pages may leave, in which order, and which are pinned. No page is listed
twice or while it is pinned. -/
structure Told (past : List Entry) (r : Recency) : Prop where
  sound : r.Sound
  order : InOrder past r.order
  pinned_iff : ∀ page, page ∈ r.pinned ↔ Pinned past page

private theorem victim_eq_head? (r : Recency) : r.victim.1 = r.order.head? := by
  rw [victim]
  cases r.order <;> rfl

namespace Told

private theorem empty : Told [] Recency.empty where
  sound := .empty
  order := .nil
  pinned_iff page := iff_of_false (by simp [Recency.empty]) (Nat.lt_irrefl 0)

variable {past : List Entry} {r : Recency} (h : Told past r)
include h

private theorem access (page : PageId) : Told (.access page :: past) (r.access page) where
  sound := h.sound.access page
  order := by
    rw [Recency.access]
    split
    · rename_i held
      -- It is only the page itself that its use could touch.
      refine h.order.still (fun other touches => ?_) (fun other => by simp [TakesOut])
      cases Option.some.inj (page?_of_touches touches)
      obtain ⟨-, free⟩ := touches.resolve_left (by simp)
      exact free ((h.pinned_iff page).mp held)
    · rename_i free
      exact h.order.touch (.inr ⟨rfl, fun held => free ((h.pinned_iff _).mpr held)⟩)
  pinned_iff other := by
    rw [pinned_access, h.pinned_iff, pinned_cons_iff]
    simp

private theorem pin (page : PageId) : Told (.pin page :: past) (r.pin page) where
  sound := h.sound.pin page
  order := h.order.takeOut (.inl rfl)
  pinned_iff other := by
    rw [mem_pinned_pin, h.pinned_iff, pinned_cons_iff]
    simp [eq_comm]

private theorem unpin (page : PageId) : Told (.unpin page :: past) (r.unpin page) where
  sound := h.sound.unpin page
  order := h.order.touch (.inl rfl)
  pinned_iff other := by
    rw [mem_pinned_unpin, h.pinned_iff, pinned_cons_iff]
    simp [eq_comm]

private theorem forget (page : PageId) : Told (.forget page :: past) (r.forget page) where
  sound := h.sound.forget page
  order := h.order.takeOut (.inr (.inl rfl))
  pinned_iff other := by
    rw [mem_pinned_forget, h.pinned_iff, pinned_cons_iff]
    simp [eq_comm]

private theorem victim : Told (.victim r.victim.1 :: past) r.victim.2 := by
  have pinned_iff (left : Option PageId) (other : PageId) :
      other ∈ r.pinned ↔ Pinned (.victim left :: past) other := by
    rw [h.pinned_iff, pinned_cons_iff]
    simp
  cases order : r.order with
  | nil =>
    rw [Recency.victim, order]
    refine ⟨h.sound, ?_, pinned_iff none⟩
    exact h.order.still (fun other => by simp [Touches]) (fun other => by simp [TakesOut])
  | cons page others =>
    -- The page that leaves is forgotten.
    have left : r.victim = (some page, r.forget page) := by rw [Recency.victim, order, h.sound.forget_eq order]
    rw [left]
    refine ⟨h.sound.forget page, h.order.takeOut (.inr (.inr rfl)), ?_⟩
    rw [h.sound.forget_eq order]
    exact pinned_iff (some page)

private theorem perform (call : Call) : Told ((r.perform call).1 :: past) (r.perform call).2 := by
  cases call with
  | access page => exact h.access page
  | pin page => exact h.pin page
  | unpin page => exact h.unpin page
  | forget page => exact h.forget page
  | victim => exact h.victim

end Told

private theorem told_noted (calls : List Call) : Told (noted calls).past (noted calls).recency := by
  induction calls using List.reverseRecOn with
  | nil => exact .empty
  | append_singleton calls call ih =>
    rw [noted_concat]
    exact ih.perform call

section Others
variable {entry : Entry} {page : PageId} (about : entry.page? = some page) {pages : List PageId}
include about

private theorem others_erase (once : pages.Nodup) : entry.others (pages.erase page) = entry.others pages := by
  rw [Entry.others, once.erase_eq_filter, List.filter_filter, Entry.others]
  refine List.filter_congr fun other _ => ?_
  rw [about, Bool.and_eq_left_iff_imp, decide_eq_true_eq, bne_iff_ne]
  exact fun different same => different (congrArg some same.symm)

private theorem others_touch (once : pages.Nodup) :
    entry.others (pages.erase page ++ [page]) = entry.others pages := by
  rw [Entry.others, List.filter_append, List.filter_cons_of_neg (by simp [about]), List.filter_nil,
    List.append_nil]
  exact others_erase about once

end Others

/-- What is asked about one page leaves the others as they are, in the same order. -/
private theorem Sound.others_perform {r : Recency} (h : r.Sound) (call : Call) :
    (r.perform call).1.others (r.perform call).2.order = (r.perform call).1.others r.order := by
  cases call with
  | access page =>
    rw [perform, Recency.access]
    split
    · rfl
    · exact others_touch rfl h.nodup
  | pin page => exact others_erase rfl h.nodup
  | unpin page => exact others_touch rfl h.nodup
  | forget page => exact others_erase rfl h.nodup
  | victim =>
    rw [perform, Recency.victim]
    split
    · rfl
    · rename_i page rest order
      rw [order, Entry.others, Entry.others, List.filter_cons_of_neg (by simp [Entry.page?])]

/-- Whatever is asked, the pages that may leave are none of the pinned ones, each listed once. They are those that
were touched after they were last pinned, forgotten or taken out to leave, in the order of their last touches, which
tells the whole list. The oldest one is the next to leave, if there is any. What is asked about one page leaves the
others in their order. -/
theorem ordered_by_last_touch (calls : List Call) :
    Told (noted calls).past (noted calls).recency ∧
    (∀ pages, InOrder (noted calls).past pages ↔ pages = (noted calls).recency.order) ∧
    (∀ page, (noted calls).recency.victim.1 = some page ↔ Oldest (noted calls).past page) ∧
    ((noted calls).recency.victim.1 = none ↔ ∀ page, ¬ MayLeave (noted calls).past page) ∧
    ∀ call, ((noted calls).recency.perform call).1.others ((noted calls).recency.perform call).2.order =
      ((noted calls).recency.perform call).1.others (noted calls).recency.order := by
  have told := told_noted calls
  rw [victim_eq_head?]
  refine ⟨told, fun pages => ⟨told.order.eq_order, ?_⟩, told.order.head?_eq_some_iff,
    told.order.head?_eq_none_iff, told.sound.others_perform⟩
  rintro rfl
  exact told.order

/-- A use of a pinned page does not touch it, and letting go a page that was never pinned does. -/
example : (noted [.access ⟨1, 1⟩, .unpin ⟨1, 2⟩, .pin ⟨1, 1⟩, .access ⟨1, 1⟩, .access ⟨1, 3⟩, .unpin ⟨1, 1⟩,
    .access ⟨1, 2⟩, .victim]).recency.order = [⟨1, 1⟩, ⟨1, 2⟩] := by
  decide +kernel

end PagedStore.Recency
