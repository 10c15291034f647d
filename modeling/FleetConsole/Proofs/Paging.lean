import Mathlib
import FleetConsole.Report.Page

/-! Rows that are fetched page by page. The pages asked for are the first one and then each next
one, and the pages of a list of rows make up the list. -/
namespace FleetConsole.Report

namespace PageControl

/-- Behind the last number there is no other, so the page with it is followed by itself. -/
theorem next_next {c : PageControl} (h : ¬c.number < lastNumber) : c.next.next = c.next := by
  rw [next, next, mk.injEq]
  exact ⟨by simp only; omega, rfl⟩

theorem not_number_next_lt {c : PageControl} (h : ¬c.number < lastNumber) :
    ¬c.next.number < lastNumber := by
  rw [next]
  simp only
  omega

end PageControl

namespace Fetch

variable {σ Row : Type} (fetch : Fetch σ Row)

/-- What lies behind the answers when a page was asked for so many times. -/
def stateAfter (c : PageControl) : Nat → σ → σ
  | 0, s => s
  | n + 1, s => stateAfter c n (fetch c s).2

/-- However often the page is asked for, it is there and not the last one. -/
def NeverLast (c : PageControl) (s : σ) : Prop :=
  ∀ n, ∃ page, (fetch c (fetch.stateAfter c n s)).1 = .ok page ∧ ¬page.isLast c

/-- The pages got from a page on, how they end, and what lies behind the answers then. -/
inductive Reads : PageControl → σ → List (Page Row) → Ending → σ → Prop
  | failed {c : PageControl} {s after : σ} {e : Fault} (h : fetch c s = (.error e, after)) :
      Reads c s [] (.failed e) after
  | last {c : PageControl} {s after : σ} {page : Page Row} (h : fetch c s = (.ok page, after))
      (hlast : page.isLast c) : Reads c s [page] .complete after
  | more {c : PageControl} {s between after : σ} {page : Page Row} {pages : List (Page Row)}
      {ending : Ending} (h : fetch c s = (.ok page, between)) (hlast : ¬page.isLast c)
      (hending : ending = .endless → c.number < PageControl.lastNumber)
      (rest : Reads c.next between pages ending after) : Reads c s (page :: pages) ending after
  /-- Only a page that is asked for over and over can be behind all others. -/
  | endless {c : PageControl} {s after : σ} {page : Page Row} (h : fetch c s = (.ok page, after))
      (hlast : ¬page.isLast c) (hnumber : ¬c.number < PageControl.lastNumber)
      (hnever : fetch.NeverLast c.next after) : Reads c s [page] .endless after

/-- The rows from a page on. -/
def rowsAt (c : PageControl) (s : σ) : Run σ Row :=
  match fetch c s with
  | (.error e, s) => ⟨[], .failed e, s⟩
  | (.ok page, s) => fetch.rowsFrom c page s

theorem rows_eq (pageSize : Nat) (s : σ) :
    fetch.rows pageSize s = fetch.rowsAt (.first pageSize) s := rfl

theorem rowsAt_of_ok {c : PageControl} {s after : σ} {page : Page Row}
    (h : fetch c s = (.ok page, after)) : fetch.rowsAt c s = fetch.rowsFrom c page after := by
  rw [rowsAt, h]

theorem rowsAt_of_error {c : PageControl} {s after : σ} {e : Fault}
    (h : fetch c s = (.error e, after)) : fetch.rowsAt c s = ⟨[], .failed e, after⟩ := by
  rw [rowsAt, h]

section Repeated

variable {fetch} {c : PageControl} {page : Page Row} {s after : σ}

theorem NeverLast.exists_ok (hnever : fetch.NeverLast c s) :
    ∃ page after, fetch c s = (.ok page, after) := by
  obtain ⟨page, hpage, -⟩ := hnever 0
  exact ⟨page, _, Prod.ext hpage rfl⟩

theorem NeverLast.of_ok (hnever : fetch.NeverLast c s) (h : fetch c s = (.ok page, after)) :
    ¬page.isLast c ∧ fetch.NeverLast c after := by
  obtain ⟨page', hpage', hlast⟩ := hnever 0
  rw [stateAfter, h] at hpage'
  cases hpage'
  refine ⟨hlast, fun n => ?_⟩
  simpa only [stateAfter, h] using hnever (n + 1)

/-- If the asking has an end, then the page is the last one at some time, or fails. -/
theorem reads_of_repeated? (hnext : c.next = c) {run : Run σ Row}
    (hrun : fetch.repeated? c page after = some run) (h : fetch c s = (.ok page, after)) :
    ¬fetch.NeverLast c s ∧ run.ending ≠ .endless ∧
      ∃ pages, fetch.Reads c s pages run.ending run.state := by
  refine repeated?.partial_correctness fetch c
    (fun page after run => ∀ s, fetch c s = (.ok page, after) →
      ¬fetch.NeverLast c s ∧ run.ending ≠ .endless ∧
        ∃ pages, fetch.Reads c s pages run.ending run.state)
    ?_ page after run hrun s h
  intro asked ih page after run hrun s h
  split at hrun
  next hlast =>
    cases hrun
    exact ⟨fun hnever => (hnever.of_ok h).1 hlast, by simp, _, .last h hlast⟩
  next hlast =>
    split at hrun
    next e final hfetch =>
      cases hrun
      refine ⟨fun hnever => ?_, by simp, _,
        .more h hlast (by simp) (.failed (hnext.symm ▸ hfetch))⟩
      obtain ⟨next, between, hok⟩ := (hnever.of_ok h).2.exists_ok
      rw [hfetch] at hok
      cases hok
    next next between hfetch =>
      obtain ⟨rest, hrest, hbehind⟩ := Option.bind_eq_some_iff.mp hrun
      cases hbehind
      obtain ⟨hnever, hending, pages, hreads⟩ := ih next between rest hrest after hfetch
      exact ⟨fun hall => hnever (hall.of_ok h).2, hending, _,
        .more h hlast (absurd · hending) (hnext.symm ▸ hreads)⟩

theorem repeated?_of_last (hlast : page.isLast c) (s : σ) :
    fetch.repeated? c page s = some ⟨page.items, .complete, s⟩ := by
  rw [repeated?, if_pos hlast]

theorem repeated?_of_error (hlast : ¬page.isLast c) {final : σ} {e : Fault}
    (h : fetch c after = (.error e, final)) :
    fetch.repeated? c page after = some ⟨page.items, .failed e, final⟩ := by
  rw [repeated?, if_neg hlast, h]

theorem repeated?_of_ok (hlast : ¬page.isLast c) {next : Page Row} {between : σ}
    (h : fetch c after = (.ok next, between)) :
    fetch.repeated? c page after = (fetch.repeated? c next between).map (.behind page.items) := by
  rw [repeated?, if_neg hlast, h]
  simp only
  cases fetch.repeated? c next between <;> rfl

/-- The asking has no end exactly if the page is there each time and never the last one. -/
theorem repeated?_eq_none_iff (hnext : c.next = c) (h : fetch c s = (.ok page, after)) :
    fetch.repeated? c page after = none ↔ fetch.NeverLast c s := by
  constructor
  · intro hnone n
    induction n generalizing s page after with
    | zero =>
      refine ⟨page, by rw [stateAfter, h], fun hlast => ?_⟩
      simp [repeated?_of_last hlast] at hnone
    | succ n ih =>
      rw [stateAfter, h]
      have hlast : ¬page.isLast c := fun hlast => by simp [repeated?_of_last hlast] at hnone
      cases hfetch : fetch c after with
      | mk answer between =>
        cases answer with
        | error e => simp [repeated?_of_error hlast hfetch] at hnone
        | ok next =>
          rw [repeated?_of_ok hlast hfetch, Option.map_eq_none_iff] at hnone
          exact ih hfetch hnone
  · intro hnever
    by_contra hsome
    obtain ⟨run, hrun⟩ := Option.ne_none_iff_exists'.mp hsome
    exact (reads_of_repeated? hnext hrun h).1 hnever

end Repeated

section RowsFrom

variable {c : PageControl} {page : Page Row} {s after : σ}

theorem rowsFrom_of_error (hlast : ¬page.isLast c) {e : Fault}
    (h : fetch c.next s = (.error e, after)) :
    fetch.rowsFrom c page s = ⟨page.items, .failed e, after⟩ := by
  rw [rowsFrom, if_neg hlast, h]

theorem rowsFrom_of_lt (hlast : ¬page.isLast c) (hnumber : c.number < PageControl.lastNumber)
    (s : σ) : fetch.rowsFrom c page s = (fetch.rowsAt c.next s).behind page.items := by
  rw [rowsFrom, if_neg hlast, rowsAt]
  cases fetch c.next s with
  | mk answer between =>
    cases answer with
    | error e => simp [Run.behind]
    | ok next => simp only [if_pos hnumber]

theorem rowsFrom_of_not_lt (hlast : ¬page.isLast c) (hnumber : ¬c.number < PageControl.lastNumber)
    {next : Page Row} (h : fetch c.next s = (.ok next, after)) :
    fetch.rowsFrom c page s =
      ((fetch.repeated? c.next next after).map (.behind page.items)).getD
        ⟨page.items, .endless, s⟩ := by
  rw [rowsFrom, if_neg hlast, h]
  simp only [if_neg hnumber]
  cases fetch.repeated? c.next next after <;> rfl

/-- A page that is followed by itself is asked for again. -/
theorem rowsFrom_eq_getD (hnext : c.next = c) (hnumber : ¬c.number < PageControl.lastNumber)
    (page : Page Row) (s : σ) :
    fetch.rowsFrom c page s = (fetch.repeated? c page s).getD ⟨page.items, .endless, s⟩ := by
  by_cases hlast : page.isLast c
  · rw [rowsFrom, if_pos hlast, repeated?_of_last hlast, Option.getD_some]
  · cases h : fetch c s with
    | mk answer after =>
      cases answer with
      | error e =>
        rw [fetch.rowsFrom_of_error hlast (hnext.symm ▸ h), repeated?_of_error hlast h,
          Option.getD_some]
      | ok next =>
        rw [fetch.rowsFrom_of_not_lt hlast hnumber (hnext.symm ▸ h), hnext,
          repeated?_of_ok hlast h]

/-- A page that is not the last one comes in front of what the next one gives, unless the asking for
the last number has no end. -/
theorem rowsFrom_of_more (hlast : ¬page.isLast c)
    (hending : (fetch.rowsAt c.next s).ending = .endless → c.number < PageControl.lastNumber) :
    fetch.rowsFrom c page s = (fetch.rowsAt c.next s).behind page.items := by
  by_cases hnumber : c.number < PageControl.lastNumber
  · exact fetch.rowsFrom_of_lt hlast hnumber s
  · cases h : fetch c.next s with
    | mk answer after =>
      cases answer with
      | error e => simp [fetch.rowsFrom_of_error hlast h, fetch.rowsAt_of_error h, Run.behind]
      | ok next =>
        rw [fetch.rowsAt_of_ok h, fetch.rowsFrom_eq_getD (PageControl.next_next hnumber)
          (PageControl.not_number_next_lt hnumber)] at hending ⊢
        rw [fetch.rowsFrom_of_not_lt hlast hnumber h]
        cases hrun : fetch.repeated? c.next next after with
        | none =>
          rw [hrun] at hending
          exact absurd (hending rfl) hnumber
        | some rest => rfl

end RowsFrom

theorem rowsAt_of_reads {c : PageControl} {s after : σ} {pages : List (Page Row)}
    {ending : Ending} (h : fetch.Reads c s pages ending after) :
    fetch.rowsAt c s = ⟨pages.flatMap Page.items, ending, after⟩ := by
  induction h with
  | failed h => exact fetch.rowsAt_of_error h
  | last h hlast => simp [fetch.rowsAt_of_ok h, rowsFrom, hlast]
  | more h hlast hending _ ih =>
    rw [fetch.rowsAt_of_ok h, fetch.rowsFrom_of_more hlast (by rwa [ih]), ih, Run.behind,
      List.flatMap_cons]
  | endless h hlast hnumber hnever =>
    obtain ⟨next, between, hnext⟩ := hnever.exists_ok
    have hnone := (repeated?_eq_none_iff (PageControl.next_next hnumber) hnext).mpr hnever
    rw [fetch.rowsAt_of_ok h, fetch.rowsFrom_of_not_lt hlast hnumber hnext, hnone]
    simp

theorem Reads.unique {c : PageControl} {s after after' : σ} {pages pages' : List (Page Row)}
    {ending ending' : Ending} (h : fetch.Reads c s pages ending after)
    (h' : fetch.Reads c s pages' ending' after') :
    pages.flatMap Page.items = pages'.flatMap Page.items ∧ ending = ending' := by
  have hrun := (fetch.rowsAt_of_reads h).symm.trans (fetch.rowsAt_of_reads h')
  exact ⟨congrArg Run.rows hrun, congrArg Run.ending hrun⟩

theorem exists_reads (c : PageControl) (s : σ) :
    ∃ pages ending after, fetch.Reads c s pages ending after := by
  induction hleft : PageControl.lastNumber - c.number generalizing c s with
  | zero =>
    have hnumber : ¬c.number < PageControl.lastNumber := by omega
    have hfixed := PageControl.next_next hnumber
    cases h : fetch c s with
    | mk answer after =>
      cases answer with
      | error e => exact ⟨_, _, _, .failed h⟩
      | ok page =>
        by_cases hlast : page.isLast c
        · exact ⟨_, _, _, .last h hlast⟩
        · cases hagain : fetch c.next after with
          | mk answer final =>
            cases answer with
            | error e => exact ⟨_, .failed e, _, .more h hlast (by simp) (.failed hagain)⟩
            | ok next =>
              cases hrun : fetch.repeated? c.next next final with
              | none =>
                have hnever := (repeated?_eq_none_iff hfixed hagain).mp hrun
                exact ⟨_, _, _, .endless h hlast hnumber hnever⟩
              | some run =>
                obtain ⟨-, hending, pages, hreads⟩ := reads_of_repeated? hfixed hrun hagain
                exact ⟨_, _, _, .more h hlast (absurd · hending) hreads⟩
  | succ left ih =>
    have hnumber : c.number < PageControl.lastNumber := by omega
    cases h : fetch c s with
    | mk answer between =>
      cases answer with
      | error e => exact ⟨_, _, _, .failed h⟩
      | ok page =>
        by_cases hlast : page.isLast c
        · exact ⟨_, _, _, .last h hlast⟩
        · have hnext := PageControl.number_next hnumber
          obtain ⟨pages, ending, after, rest⟩ := ih c.next between (by omega)
          exact ⟨_, _, _, .more h hlast (fun _ => hnumber) rest⟩

/-- The source of pages with a list of the pages asked for. -/
def noting : Fetch (List PageControl × σ) Row := fun c s =>
  ((fetch c s.2).1, s.1 ++ [c], (fetch c s.2).2)

theorem stateAfter_noting (c : PageControl) (n : Nat) (s : List PageControl × σ) :
    (fetch.noting.stateAfter c n s).2 = fetch.stateAfter c n s.2 := by
  induction n generalizing s with
  | zero => rfl
  | succ n ih => exact ih _

theorem NeverLast.noting {fetch : Fetch σ Row} {c : PageControl} {s : σ}
    (h : fetch.NeverLast c s) (asked : List PageControl) :
    fetch.noting.NeverLast c (asked, s) := fun n => by
  rw [Fetch.noting, stateAfter_noting]
  exact h n

end Fetch

/-- So many pages, each followed by the next one. -/
def PageControl.upFrom (c : PageControl) (count : Nat) : List PageControl := .iterate next c count

theorem PageControl.upFrom_succ (c : PageControl) (count : Nat) :
    c.upFrom (count + 1) = c :: c.next.upFrom count := rfl

/-- As long as there are numbers left, the pages are those with the numbers from the first on. -/
theorem PageControl.upFrom_eq {c : PageControl} {count : Nat}
    (h : c.number + count ≤ lastNumber + 1) :
    c.upFrom count = (List.range count).map fun k => { c with number := c.number + k } := by
  induction count generalizing c with
  | zero => rfl
  | succ count ih =>
    obtain _ | hcount := Nat.eq_zero_or_pos count
    · subst count
      rfl
    · have hnext := number_next (c := c) (by omega)
      rw [upFrom_succ, ih (by omega), List.range_succ_eq_map, List.map_cons, List.map_map]
      simp only [hnext, Function.comp_def, size_next, Nat.add_zero, Nat.succ_eq_add_one,
        Nat.add_assoc, Nat.add_comm 1]

/-- How many pages were asked for when so many were got. -/
def Ending.asked (got : Nat) : Ending → Nat
  | .failed _ => got + 1
  | .complete | .endless => got

theorem Ending.asked_succ (got : Nat) (ending : Ending) :
    ending.asked (got + 1) = ending.asked got + 1 := by
  cases ending <;> rfl

namespace Fetch

variable {σ Row : Type} {fetch : Fetch σ Row}

/-- Each page is asked for once, in order, and noting it changes nothing else. -/
theorem Reads.noting {c : PageControl} {s after : σ} {pages : List (Page Row)} {ending : Ending}
    (h : fetch.Reads c s pages ending after) (asked : List PageControl) :
    fetch.noting.Reads c (asked, s) pages ending
      (asked ++ c.upFrom (ending.asked pages.length), after) := by
  have hone (c : PageControl) : c.upFrom 1 = [c] := rfl
  induction h generalizing asked with
  | failed h => exact .failed (by simp [Fetch.noting, h, Ending.asked, hone])
  | last h hlast => exact .last (by simp [Fetch.noting, h, Ending.asked, hone]) hlast
  | @more c s between after page pages ending h hlast hending _ ih =>
    have hnoted : fetch.noting c (asked, s) = (.ok page, asked ++ [c], between) := by
      simp [Fetch.noting, h]
    have hrest := ih (asked ++ [c])
    rw [List.append_assoc, List.singleton_append, ← PageControl.upFrom_succ,
      ← Ending.asked_succ] at hrest
    exact .more hnoted hlast hending hrest
  | endless h hlast hnumber hnever =>
    exact .endless (by simp [Fetch.noting, h, Ending.asked, hone]) hlast hnumber (hnever.noting _)

end Fetch

/-- The page of a list of rows, with the number of all rows or without it. -/
def Page.cut {Row : Type} (rows : List Row) (counted : Bool) (c : PageControl) : Page Row :=
  { Page.ofRows rows c with total := if counted then some rows.length else none }

/-- How many pages of a size it takes to learn that there are no more rows. -/
def pagesNeeded (counted : Bool) (length size : Nat) : Nat :=
  if counted then max 1 ((length + size - 1) / size) else length / size + 1

theorem pagesNeeded_pos (counted : Bool) (length size : Nat) :
    0 < pagesNeeded counted length size := by
  unfold pagesNeeded
  split
  · exact Nat.lt_of_lt_of_le Nat.zero_lt_one (Nat.le_max_left _ _)
  · exact Nat.succ_pos _

theorem pagesNeeded_le_iff {counted : Bool} {length size count : Nat} (hsize : 0 < size) :
    pagesNeeded counted length size ≤ count + 1 ↔
      if counted then length ≤ (count + 1) * size else length < (count + 1) * size := by
  have hmul : (count + 2) * size = (count + 1) * size + size := by ring
  unfold pagesNeeded
  cases counted with
  | true =>
    have hdiv := Nat.div_lt_iff_lt_mul (x := length + size - 1) (y := count + 2) hsize
    simp only [if_true]
    omega
  | false =>
    have hdiv := Nat.div_lt_iff_lt_mul (x := length) (y := count + 1) hsize
    simp only [Bool.false_eq_true, if_false]
    omega

theorem Page.isLast_cut_iff {Row : Type} {rows : List Row} {counted : Bool} {c : PageControl}
    (hsize : 0 < c.size) :
    (cut rows counted c).isLast c ↔ pagesNeeded counted rows.length c.size ≤ c.number + 1 := by
  have hoffset : (c.number + 1) * c.size = c.offset + c.size := by
    rw [PageControl.offset, Nat.succ_mul]
  rw [pagesNeeded_le_iff hsize, hoffset]
  cases counted <;> simp [isLast, cut, ofRows] <;> omega

namespace Fetch

variable {σ Row : Type} {fetch : Fetch σ Row} {size : Nat} {rows : List Row} {counted : Bool}
  {fault? : Nat → Option Fault}

/-- Answers with the pages of a list of rows, where the number of all rows is always given or never,
and some pages fail. -/
structure Serves (fetch : Fetch σ Row) (size : Nat) (rows : List Row) (counted : Bool)
    (fault? : Nat → Option Fault) : Prop where
  answer_eq : ∀ k s, (fetch ⟨k, size⟩ s).1 =
    match fault? k with
    | some e => .error e
    | none => .ok (Page.cut rows counted ⟨k, size⟩)

theorem Serves.of_some (h : fetch.Serves size rows counted fault?) {k : Nat} {e : Fault}
    (hfault : fault? k = some e) (s : σ) : ∃ after, fetch ⟨k, size⟩ s = (.error e, after) := by
  have hanswer := h.answer_eq k s
  rw [hfault] at hanswer
  exact ⟨_, Prod.ext hanswer rfl⟩

theorem Serves.of_none (h : fetch.Serves size rows counted fault?) {k : Nat}
    (hfault : fault? k = none) (s : σ) :
    ∃ after, fetch ⟨k, size⟩ s = (.ok (Page.cut rows counted ⟨k, size⟩), after) := by
  have hanswer := h.answer_eq k s
  rw [hfault] at hanswer
  exact ⟨_, Prod.ext hanswer rfl⟩

/-- Pages that do not fail and are not the last hold the rows up to the page after them. -/
theorem Serves.exists_reads_append (h : fetch.Serves size rows counted fault?) (first count : Nat)
    (hsize : 0 < size) (hneeded : first + count < pagesNeeded counted rows.length size)
    (hroom : pagesNeeded counted rows.length size ≤ PageControl.lastNumber + 1)
    (hfaults : ∀ k, first ≤ k → k < first + count → fault? k = none) (s : σ) :
    ∃ reached pages, pages.length = count ∧
      pages.flatMap Page.items = (rows.drop (first * size)).take (count * size) ∧
      ∀ tail ending after, fetch.Reads ⟨first + count, size⟩ reached tail ending after →
        fetch.Reads ⟨first, size⟩ s (pages ++ tail) ending after := by
  induction count generalizing first s with
  | zero => exact ⟨s, [], rfl, by simp, fun _ _ _ hread => hread⟩
  | succ count ih =>
    obtain ⟨between, hfetch⟩ :=
      h.of_none (hfaults first (by omega) (by omega)) s
    have hlast : ¬(Page.cut rows counted ⟨first, size⟩).isLast ⟨first, size⟩ := by
      rw [Page.isLast_cut_iff hsize]
      simp only
      omega
    have hnumber : first < PageControl.lastNumber := by omega
    have hnext : PageControl.next ⟨first, size⟩ = ⟨first + 1, size⟩ := by
      rw [PageControl.next, PageControl.mk.injEq]
      exact ⟨by simp only; omega, rfl⟩
    obtain ⟨reached, pages, hlength, hitems, hreads⟩ := ih (first + 1) (by omega)
      (fun k hk hk' => hfaults k (by omega) (by omega)) between
    rw [Nat.add_assoc, Nat.add_comm 1] at hreads
    refine ⟨reached, Page.cut rows counted ⟨first, size⟩ :: pages, by simp [hlength], ?_,
      fun tail ending after hread => ?_⟩
    · rw [List.flatMap_cons, hitems, Nat.succ_mul, Nat.succ_mul, Nat.add_comm (count * size),
        List.take_add, List.drop_drop]
      rfl
    · have hrest := hreads tail ending after hread
      rw [← hnext] at hrest
      exact .more hfetch hlast (fun _ => hnumber) hrest

/-- Without a failing page, the pages hold the rows, and there are as many as it takes. -/
theorem Serves.exists_reads_complete (h : fetch.Serves size rows counted fault?)
    (hsize : 0 < size) (hroom : pagesNeeded counted rows.length size ≤ PageControl.lastNumber + 1)
    (hfaults : ∀ k < pagesNeeded counted rows.length size, fault? k = none) (s : σ) :
    ∃ pages after, pages.length = pagesNeeded counted rows.length size ∧
      pages.flatMap Page.items = rows ∧ fetch.Reads ⟨0, size⟩ s pages .complete after := by
  obtain ⟨count, hcount⟩ := Nat.exists_eq_add_of_le'
    (pagesNeeded_pos counted rows.length size)
  obtain ⟨reached, pages, hlength, hitems, hreads⟩ :=
    h.exists_reads_append 0 count hsize (by omega) hroom (fun k _ hk => hfaults k (by omega)) s
  rw [Nat.zero_add] at hreads
  rw [Nat.zero_mul, List.drop_zero] at hitems
  obtain ⟨after, hfetch⟩ := h.of_none (hfaults count (by omega)) reached
  have hlast : (Page.cut rows counted ⟨count, size⟩).isLast ⟨count, size⟩ :=
    (Page.isLast_cut_iff hsize).mpr (by simp only; omega)
  have hrest : (rows.drop (count * size)).take size = rows.drop (count * size) := by
    have hshort := (pagesNeeded_le_iff hsize).mp (Nat.le_of_eq hcount)
    rw [Nat.succ_mul] at hshort
    refine List.take_of_length_le ?_
    rw [List.length_drop]
    split at hshort <;> omega
  refine ⟨_, after, ?_, ?_, hreads _ _ _ (.last hfetch hlast)⟩
  · simp [hlength, hcount]
  · have hitem : (Page.cut rows counted ⟨count, size⟩).items = rows.drop (count * size) := hrest
    rw [List.flatMap_append, List.flatMap_singleton, hitems, hitem, List.take_append_drop]

/-- A page that fails ends the rows with those of the pages before it. -/
theorem Serves.exists_reads_failed (h : fetch.Serves size rows counted fault?)
    (hsize : 0 < size) (hroom : pagesNeeded counted rows.length size ≤ PageControl.lastNumber + 1)
    {f : Nat} (hf : f < pagesNeeded counted rows.length size) {e : Fault}
    (hfault : fault? f = some e) (hbefore : ∀ k < f, fault? k = none) (s : σ) :
    ∃ pages after, pages.length = f ∧ pages.flatMap Page.items = rows.take (f * size) ∧
      fetch.Reads ⟨0, size⟩ s pages (.failed e) after := by
  obtain ⟨reached, pages, hlength, hitems, hreads⟩ :=
    h.exists_reads_append 0 f hsize (by omega) hroom (fun k _ hk => hbefore k (by omega)) s
  rw [Nat.zero_add] at hreads
  rw [Nat.zero_mul, List.drop_zero] at hitems
  obtain ⟨after, hfetch⟩ := h.of_some hfault reached
  refine ⟨_, after, ?_, ?_, hreads _ _ _ (.failed hfetch)⟩
  · simp [hlength]
  · simp [hitems]

theorem rows_of_reads {pageSize : Nat} {s after : σ} {pages : List (Page Row)} {ending : Ending}
    (h : fetch.Reads (.first pageSize) s pages ending after) :
    fetch.rows pageSize s = ⟨pages.flatMap Page.items, ending, after⟩ ∧
      (fetch.noting.rows pageSize ([], s)).state.1 =
        (PageControl.first pageSize).upFrom (ending.asked pages.length) := by
  rw [rows_eq, rows_eq, fetch.rowsAt_of_reads h, fetch.noting.rowsAt_of_reads (h.noting [])]
  exact ⟨rfl, rfl⟩

/-- Paging loses no row and repeats none. Each page is asked for once, in order, and as many as it
takes; the first that fails ends the rows with its fault, behind those of the pages before it. -/
theorem paging_yields_each_row_once (size : Nat)
    (h : fetch.Serves (max size 1) rows counted fault?)
    (hsize : rows.length < max size 1 * 2 ^ 32) (s : σ) :
    let needed := pagesNeeded counted rows.length (max size 1)
    let asked := (fetch.noting.rows size ([], s)).state.1
    ((∀ k < needed, fault? k = none) →
      (fetch.rows size s).items = rows.map .ok ∧ (fetch.rows size s).ending = .complete ∧
        asked = (List.range needed).map fun k => ⟨k, max size 1⟩) ∧
    ∀ f < needed, ∀ e, fault? f = some e → (∀ k < f, fault? k = none) →
      (fetch.rows size s).items = (rows.take (f * max size 1)).map .ok ++ [.error e] ∧
        asked = (List.range (f + 1)).map fun k => ⟨k, max size 1⟩ := by
  intro needed asked
  have hpos : 0 < max size 1 := by omega
  have hroom : needed ≤ PageControl.lastNumber + 1 := by
    refine (pagesNeeded_le_iff hpos).mpr ?_
    simp only [PageControl.lastNumber]
    split <;> omega
  have hup (count : Nat) (hcount : count ≤ needed) : (PageControl.first size).upFrom count =
      (List.range count).map fun k => ⟨k, max size 1⟩ := by
    have hzero : (PageControl.first size).number = 0 := rfl
    rw [PageControl.upFrom_eq (by omega)]
    simp [PageControl.first]
  refine ⟨fun hfaults => ?_, fun f hf e hfault hbefore => ?_⟩
  · obtain ⟨pages, after, hlength, hitems, hreads⟩ :=
      h.exists_reads_complete hpos hroom hfaults s
    obtain ⟨hrows, hasked⟩ := rows_of_reads hreads
    refine ⟨?_, by rw [hrows], ?_⟩
    · simp [Run.items, Ending.fault?, hrows, hitems]
    · rw [← hup needed le_rfl]
      exact hasked.trans (by rw [Ending.asked, hlength])
  · obtain ⟨pages, after, hlength, hitems, hreads⟩ :=
      h.exists_reads_failed hpos hroom hf hfault hbefore s
    obtain ⟨hrows, hasked⟩ := rows_of_reads hreads
    refine ⟨?_, ?_⟩
    · simp [Run.items, Ending.fault?, hrows, hitems]
    · rw [← hup (f + 1) hf]
      exact hasked.trans (by rw [Ending.asked, hlength])

end Fetch

namespace SixRows

def fault : Fault := .ofKind .database "Query failed" "connection reset"

/-- Pages of six rows, from a source that does not count them. -/
def fetch (fault? : Nat → Option Fault) : Fetch Unit Nat := fun c s =>
  (match fault? c.number with
    | some e => .error e
    | none => .ok (Page.cut (List.range 6) false c), s)

theorem serves (size : Nat) (fault? : Nat → Option Fault) :
    (fetch fault?).Serves size (List.range 6) false fault? := ⟨fun _ _ => rfl⟩

/-- Two pages hold all six rows; that there are no more shows only on the third, whether it is empty
or fails. -/
theorem paging_yields_each_row_once_six_rows :
    ((fetch fun _ => none).rows 3 ()).items = (List.range 6).map .ok ∧
      ((fetch fun _ => none).noting.rows 3 ([], ())).state.1 = [⟨0, 3⟩, ⟨1, 3⟩, ⟨2, 3⟩] ∧
      ((fetch fun k => if 2 ≤ k then some fault else none).rows 3 ()).items =
        (List.range 6).map .ok ++ [.error fault] := by
  obtain ⟨hcomplete, -⟩ :=
    Fetch.paging_yields_each_row_once 3 (serves _ fun _ => none) (by decide) ()
  obtain ⟨-, hfailed⟩ := Fetch.paging_yields_each_row_once 3
    (serves _ fun k => if 2 ≤ k then some fault else none) (by decide) ()
  obtain ⟨hitems, -, hasked⟩ := hcomplete fun _ _ => rfl
  exact ⟨hitems, hasked, (hfailed 2 (by decide) fault rfl (by simp)).1⟩

end SixRows

end FleetConsole.Report
