import Mathlib.Data.List.TakeWhile
import TrafficMeter.Text.Blank

/-!
# What trimming leaves

Trimming a text is described without saying how it is done. The text is cut into three parts, the outer ones
hold blanks only, and the middle one neither begins nor ends with a blank (`Text.Trims`). There is such a cut for
every text, and the middle part of each is what `Text.trim` gives.
-/

namespace TrafficMeter.Text

/-- `text` has the blanks `lead` and `trail` around a `core` that neither begins nor ends with one. -/
structure Trims (text lead core trail : List Char) : Prop where
  /-- The text consists of the three parts. -/
  text_eq : text = lead ++ core ++ trail
  /-- Only blanks stand before the core. -/
  lead_blank : ∀ c ∈ lead, isBlank c
  /-- Only blanks stand behind the core. -/
  trail_blank : ∀ c ∈ trail, isBlank c
  /-- The core does not begin with a blank. -/
  head_not_blank : ∀ c ∈ core.head?, ¬ isBlank c
  /-- The core does not end with a blank. -/
  last_not_blank : ∀ c ∈ core.getLast?, ¬ isBlank c

/-- `trimStart` leaves out the blanks `lead` before a character that is none. -/
theorem trimStart_append {lead rest : List Char} (hlead : ∀ c ∈ lead, isBlank c)
    (hrest : ∀ c ∈ rest.head?, ¬ isBlank c) : trimStart (lead ++ rest) = rest := by
  rw [trimStart, List.dropWhile_append_of_pos hlead]
  cases rest with
  | nil => rfl
  | cons c rest => exact List.dropWhile_cons_of_neg (hrest c rfl)

/-- `trimEnd` leaves out the blanks `trail` behind a character that is none. -/
theorem trimEnd_append {rest trail : List Char} (htrail : ∀ c ∈ trail, isBlank c)
    (hrest : ∀ c ∈ rest.getLast?, ¬ isBlank c) : trimEnd (rest ++ trail) = rest := by
  have hstart : trimStart (trail.reverse ++ rest.reverse) = rest.reverse :=
    trimStart_append (fun c hc => htrail c (List.mem_reverse.mp hc)) (by rwa [List.head?_reverse])
  rw [trimEnd, List.reverse_append, ← trimStart, hstart, List.reverse_reverse]

/-- The `core` of a `text` is what `trim` leaves. -/
theorem Trims.trim_eq {text lead core trail : List Char} (h : Trims text lead core trail) :
    trim text = core := by
  obtain ⟨rfl, hlead, htrail, hhead, hlast⟩ := h
  cases core with
  | nil =>
    -- A text of blanks has no character at which trimming from the left could stop.
    have hblank : ∀ c ∈ lead ++ trail, isBlank c := fun c hc =>
      (List.mem_append.mp hc).elim (hlead c) (htrail c)
    have hstart : trimStart (lead ++ trail ++ []) = [] := trimStart_append hblank (by simp)
    rw [List.append_nil] at hstart
    rw [trim, List.append_nil, hstart]
    rfl
  | cons c core =>
    have hstart : trimStart (lead ++ (c :: core ++ trail)) = c :: core ++ trail :=
      trimStart_append hlead fun d hd => hhead d hd
    rw [trim, List.append_assoc, hstart, trimEnd_append htrail hlast]

/-- Every `text` ends with some blanks, or none, behind a character that is none. -/
theorem exists_trimEnd (text : List Char) :
    ∃ trail, text = trimEnd text ++ trail ∧ (∀ c ∈ trail, isBlank c) ∧
      ∀ c ∈ (trimEnd text).getLast?, ¬ isBlank c := by
  refine ⟨(text.reverse.takeWhile isBlank).reverse, ?_, fun c hc => ?_, fun c hc => ?_⟩
  · rw [trimEnd, ← List.reverse_append, List.takeWhile_append_dropWhile, List.reverse_reverse]
  · exact List.mem_takeWhile_imp (List.mem_reverse.mp hc)
  · rw [trimEnd, List.getLast?_reverse] at hc
    have hhead := List.head?_dropWhile_not isBlank text.reverse
    rw [hc] at hhead
    simpa using hhead

/-- Every `text` can be trimmed. -/
theorem exists_trims (text : List Char) : ∃ lead trail, Trims text lead (trim text) trail := by
  obtain ⟨trail, hsplit, htrail, hlast⟩ := exists_trimEnd (trimStart text)
  refine ⟨text.takeWhile isBlank, trail, ?_, fun c hc => List.mem_takeWhile_imp hc, htrail, fun c hc => ?_,
    hlast⟩
  · rw [trim, List.append_assoc, ← hsplit, trimStart, List.takeWhile_append_dropWhile]
  · -- The core begins as the text does behind its first blanks.
    have hhead := List.head?_dropWhile_not isBlank text
    rw [← trimStart, hsplit, List.head?_append, ← trim, hc] at hhead
    simpa using hhead

end TrafficMeter.Text
