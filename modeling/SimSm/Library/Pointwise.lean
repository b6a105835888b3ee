import Mathlib.Algebra.GroupWithZero.Nat
import Mathlib.Data.List.Forall2

namespace Pointwise

/-!
# Lists related position by position

Rules for `List.Forall₂` in terms of positions: lookup on either side,
composition, and updates at one position.
-/

section

variable {α β γ δ : Type*}
variable {related : α → β → Prop}
variable {firsts : List α}
variable {seconds : List β}

/-- An element on the left has its partner at the same position. -/
theorem partner
    {position : Nat}
    {first : α}
    (pointwise : List.Forall₂ related firsts seconds)
    (found : firsts[position]? = some first) :
    ∃ second,
      seconds[position]? = some second ∧ related first second := by
  induction pointwise generalizing position with
  | nil =>
      simp at found
  | cons head _ inductionHypothesis =>
      cases position with
      | zero =>
          simp only [List.getElem?_cons_zero, Option.some.injEq] at found
          subst found
          exact ⟨_, rfl, head⟩
      | succ position =>
          exact inductionHypothesis (by simpa using found)

/-- An element on the right has its partner at the same position. -/
theorem origin
    {position : Nat}
    {second : β}
    (pointwise : List.Forall₂ related firsts seconds)
    (found : seconds[position]? = some second) :
    ∃ first,
      firsts[position]? = some first ∧ related first second :=
  partner pointwise.flip found

/-- An element is related to its position, where a range is on the left. -/
theorem origin_range
    {related : Nat → β → Prop}
    {count : Nat}
    {seconds : List β}
    {position : Nat}
    {second : β}
    (pointwise : List.Forall₂ related (List.range count) seconds)
    (found : seconds[position]? = some second) :
    position < count ∧ related position second := by
  obtain ⟨first, isFirst, isRelated⟩ := origin pointwise found
  obtain ⟨inside, same⟩ := List.getElem?_eq_some_iff.mp isFirst
  rw [List.length_range] at inside
  rw [List.getElem_range] at same
  subst same
  exact ⟨inside, isRelated⟩

/-- Images that depend on the positions only are the images of a range. -/
theorem map_eq_range
    {elements : List α}
    {count : Nat}
    {image : α → γ}
    {value : Nat → γ}
    (length : elements.length = count)
    (same :
      ∀ {position : Nat} {element : α},
        elements[position]? = some element →
        image element = value position) :
    elements.map image = (List.range count).map value := by
  apply List.ext_getElem?
  intro position
  rw [List.getElem?_map, List.getElem?_map]
  cases found : elements[position]? with
  | none =>
      have outside := List.getElem?_eq_none_iff.mp found
      rw [length, ← @List.length_range count] at outside
      rw [List.getElem?_eq_none_iff.mpr outside]
      rfl
  | some element =>
      obtain ⟨inside, _⟩ := List.getElem?_eq_some_iff.mp found
      rw [length] at inside
      rw [List.getElem?_range inside, Option.map_some, Option.map_some,
        same found]

/-- Partners at one position are related. -/
theorem related_at
    {position : Nat}
    {first : α}
    {second : β}
    (pointwise : List.Forall₂ related firsts seconds)
    (foundFirst : firsts[position]? = some first)
    (foundSecond : seconds[position]? = some second) :
    related first second := by
  obtain ⟨other, found, isRelated⟩ := partner pointwise foundFirst
  rw [foundSecond, Option.some.injEq] at found
  rw [found]
  exact isRelated

/-- Lists of one length that are related at every position. -/
theorem of_positions
    (length : firsts.length = seconds.length)
    (atPosition :
      ∀ {position : Nat} {first : α} {second : β},
        firsts[position]? = some first →
        seconds[position]? = some second →
        related first second) :
    List.Forall₂ related firsts seconds := by
  rw [List.forall₂_iff_get]
  refine ⟨length, fun position inFirsts inSeconds => ?_⟩
  exact
    atPosition
      (List.getElem?_eq_getElem inFirsts)
      (List.getElem?_eq_getElem inSeconds)

/-- Relations compose position by position. -/
theorem compose
    {next : β → γ → Prop}
    {result : α → γ → Prop}
    {thirds : List γ}
    (earlier : List.Forall₂ related firsts seconds)
    (later : List.Forall₂ next seconds thirds)
    (through :
      ∀ {first : α} {second : β} {third : γ},
        related first second → next second third → result first third) :
    List.Forall₂ result firsts thirds := by
  induction earlier generalizing thirds with
  | nil =>
      cases later
      exact .nil
  | cons head _ inductionHypothesis =>
      cases later with
      | cons nextHead nextTail =>
          exact .cons (through head nextHead) (inductionHypothesis nextTail)

/-- Equal images position by position are equal lists of images. -/
theorem map_eq
    {leftImage : α → δ}
    {rightImage : β → δ}
    (pointwise : List.Forall₂ related firsts seconds)
    (same :
      ∀ {first : α} {second : β},
        related first second → rightImage second = leftImage first) :
    seconds.map rightImage = firsts.map leftImage := by
  induction pointwise with
  | nil =>
      rfl
  | cons head _ inductionHypothesis =>
      rw [List.map_cons, List.map_cons, same head, inductionHypothesis]

/-- Replacing an element by one of the same image keeps the images. -/
theorem map_set_eq
    {image : α → γ}
    {elements : List α}
    {position : Nat}
    {before after : α}
    (found : elements[position]? = some before)
    (same : image after = image before) :
    (elements.set position after).map image = elements.map image := by
  obtain ⟨inside, shape⟩ := List.getElem?_eq_some_iff.mp found
  have bound : position < (elements.map image).length := by
    simpa using inside
  have kept : (elements.map image)[position] = image before := by
    simp [shape]
  rw [List.map_set, same, ← kept, List.set_getElem_self]

/-- Replacing an element exchanges its summand. -/
theorem sum_map_set
    {summand : α → Nat}
    {elements : List α}
    {position : Nat}
    {before : α}
    (found : elements[position]? = some before)
    (after : α) :
    ((elements.set position after).map summand).sum + summand before =
      (elements.map summand).sum + summand after := by
  induction elements generalizing position with
  | nil => simp at found
  | cons head rest inductionHypothesis =>
      cases position with
      | zero =>
          simp only [List.getElem?_cons_zero, Option.some.injEq] at found
          subst found
          rw [List.set_cons_zero, List.map_cons, List.map_cons,
            List.sum_cons, List.sum_cons]
          omega
      | succ position =>
          have others := inductionHypothesis (by simpa using found)
          rw [List.set_cons_succ, List.map_cons, List.map_cons,
            List.sum_cons, List.sum_cons]
          omega

/-- A sum with one nonzero summand at most is that summand. -/
theorem sum_of_only
    {summand : α → Nat}
    {elements : List α}
    {position : Nat}
    {element : α}
    (found : elements[position]? = some element)
    (others :
      ∀ other otherElement,
        other ≠ position →
        elements[other]? = some otherElement →
        summand otherElement = 0) :
    (elements.map summand).sum = summand element := by
  induction elements generalizing position with
  | nil => simp at found
  | cons head rest inductionHypothesis =>
      rw [List.map_cons, List.sum_cons]
      cases position with
      | zero =>
          simp only [List.getElem?_cons_zero, Option.some.injEq] at found
          subst found
          have none : (rest.map summand).sum = 0 := by
            rw [List.sum_eq_zero_iff_forall_eq_nat]
            intro value member
            obtain ⟨other, isOther, rfl⟩ := List.mem_map.mp member
            obtain ⟨otherPosition, isAt⟩ := List.mem_iff_getElem?.mp isOther
            exact
              others (otherPosition + 1) other (Nat.succ_ne_zero _)
                (by simpa using isAt)
          rw [none, Nat.add_zero]
      | succ position =>
          have headZero :=
            others 0 head (Nat.succ_ne_zero position).symm rfl
          rw [headZero, Nat.zero_add]
          refine
            inductionHypothesis (by simpa using found)
              fun other otherElement elsewhere isAt => ?_
          exact
            others (other + 1) otherElement
              (fun same => elsewhere (Nat.succ.inj same))
              (by simpa using isAt)

/-- Filtering both sides by a test on the left keeps them related. -/
theorem filter_zip
    (keep : α → Bool)
    (pointwise : List.Forall₂ related firsts seconds) :
    List.Forall₂ related (firsts.filter keep)
      (((firsts.zip seconds).filter fun pair => keep pair.1).map
        Prod.snd) := by
  induction pointwise with
  | nil => exact .nil
  | cons head _ inductionHypothesis =>
      rename_i first _ _ _ _
      rw [List.zip_cons_cons, List.filter_cons, List.filter_cons]
      cases keep first with
      | true => exact .cons head inductionHypothesis
      | false => exact inductionHypothesis

/-- Filtering one of two lists in step and zipping is filtering the zip. -/
theorem zip_filter_zip
    {firsts : List α}
    {seconds : List β}
    (keep : α → Bool)
    (lengths : firsts.length = seconds.length) :
    (firsts.filter keep).zip
        (((firsts.zip seconds).filter fun pair => keep pair.1).map
          Prod.snd) =
      (firsts.zip seconds).filter fun pair => keep pair.1 := by
  induction firsts generalizing seconds with
  | nil => rfl
  | cons first rest inductionHypothesis =>
      cases seconds with
      | nil => cases lengths
      | cons second others =>
          have rest := inductionHypothesis (Nat.succ.inj lengths)
          rw [List.zip_cons_cons, List.filter_cons, List.filter_cons]
          cases keep first with
          | true => exact congrArg ((first, second) :: ·) rest
          | false => exact rest

end

end Pointwise
