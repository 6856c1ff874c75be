import BsonWire.Reading

/-!
# Runs of a series

`BsonWire.Reading.series` collects items and notes last first and turns them round at the end.
What it does is easier to say front to back, one item at a time:
`BsonWire.Reading.Runs` relates a place in the series to all that comes of the series from there
on. A run **stops** where no further item is due, **fails** with an item that could not be read,
and **goes on** behind an item that was.

Every series is a run (`BsonWire.Reading.runs_series`), so what holds of runs by induction holds of
series, and there is only one run from a given place (`BsonWire.Reading.Runs.unique`).
-/

namespace BsonWire.Reading

variable {α β : Type} {item : Nat → Reading (Option α)} {more : Nat → Nat → Bool}

/-- **A run of a series** from the position `pos`, with `count` items in front of it, to its end:
its items and notes in order, and the position it ends at or the read that failed. -/
inductive Runs (item : Nat → Reading (Option α)) (more : Nat → Nat → Bool) :
    (count pos : Nat) → Reading (List α) → Prop
  /-- No further item is due. -/
  | stop {count pos : Nat} : more count pos = false → Runs item more count pos ⟨[], [], .ok pos⟩
  /-- The next item could not be read; what is there of it is kept. -/
  | failed {count pos : Nat} {e : ReadError} :
    more count pos = true → (item pos).outcome = .error e →
    Runs item more count pos ⟨(item pos).value.toList, (item pos).notes, .error e⟩
  /-- The next item was read, and the series goes on behind it. -/
  | next {count pos width : Nat} {rest : Reading (List α)} :
    more count pos = true → (item pos).outcome = .ok width →
    Runs item more (count + 1) (pos + width) rest →
    Runs item more count pos
      ⟨(item pos).value.toList ++ rest.value, (item pos).notes ++ rest.notes, rest.outcome⟩

/-- A place in a series determines what comes of it. -/
theorem Runs.unique {count pos : Nat} {r r' : Reading (List α)} (h : Runs item more count pos r)
    (h' : Runs item more count pos r') : r = r' := by
  induction h generalizing r' with
  | stop hmore =>
    cases h' with
    | stop => rfl
    | failed hmore' => simp [hmore] at hmore'
    | next hmore' => simp [hmore] at hmore'
  | failed hmore he =>
    cases h' with
    | stop hmore' => simp [hmore] at hmore'
    | failed _ he' =>
      rw [he] at he'
      cases he'
      rfl
    | next _ hok =>
      rw [he] at hok
      cases hok
  | next hmore hok hrest ih =>
    cases h' with
    | stop hmore' => simp [hmore] at hmore'
    | failed _ he' =>
      rw [hok] at he'
      cases he'
    | next _ hok' hrest' =>
      rw [hok] at hok'
      cases hok'
      rw [ih hrest']

/-- A run does not go back. -/
theorem Runs.le {count pos stop : Nat} {r : Reading (List α)} (h : Runs item more count pos r)
    (hr : r.outcome = .ok stop) : pos ≤ stop := by
  induction h with
  | stop =>
    cases hr
    exact Nat.le_refl _
  | failed => cases hr
  | next _ _ _ ih =>
    have := ih hr
    omega

section Series

/-- What a series does with the value of an item, in the order of the items. -/
theorem reverse_consIfAny (value : Option α) (items : List α) :
    (match value with
      | some a => a :: items
      | none => items).reverse = items.reverse ++ value.toList := by
  cases value with
  | none => simp
  | some a => simp

variable {size : Nat} (advances : Advances item size)

/-- What a series has collected is put in front of what its run gives. -/
theorem exists_runs_seriesFrom (start pos count : Nat) (items : List α) (notes : List Note) :
    ∃ r, Runs item more count pos r ∧
      seriesFrom item size advances more start pos count items notes =
        ⟨items.reverse ++ r.value, notes.reverse ++ r.notes, r.outcome.map (· - start)⟩ := by
  fun_induction seriesFrom item size advances more start pos count items notes with
  | case1 pos count items notes hmore r items' notes' width hok ih =>
    obtain ⟨rest, hruns, heq⟩ := ih
    refine ⟨_, .next hmore hok hruns, ?_⟩
    have hitems : items'.reverse = _ := reverse_consIfAny r.value items
    rw [heq, hitems]
    simp [notes', r]
  | case2 pos count items notes hmore r items' notes' e he =>
    refine ⟨_, .failed hmore he, ?_⟩
    have hitems : items'.reverse = _ := reverse_consIfAny r.value items
    rw [hitems]
    simp [notes', r, Except.map]
  | case3 pos count items notes hmore =>
    refine ⟨_, .stop (by simpa using hmore), ?_⟩
    simp [Except.map]

/-- **Every series is a run.** -/
theorem runs_series (more : Nat → Nat → Bool) (start : Nat) :
    ∃ r, Runs item more 0 start r ∧
      series item size advances more start = ⟨r.value, r.notes, r.outcome.map (· - start)⟩ :=
  exists_runs_seriesFrom advances start start 0 [] []

end Series

end BsonWire.Reading
