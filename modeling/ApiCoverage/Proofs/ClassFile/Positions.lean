import ApiCoverage.Proofs.ClassFile.Composition

/-!
# Reading by positions

A reader is made of a few primitive steps. The same steps can be taken on a whole file that is never
taken apart: then every byte is looked up by its position, and the body of an attribute is a window
into the file. Looking up a position outside of the file is an outcome of its own, different from a
value and from a fault. The main statement says that this outcome never comes up, and that reading by
positions gives what the reader gives.
-/

namespace ApiCoverage.ClassFile

/-! ## Windows -/

/-- A stretch of a file: the next position to be read and the one at which the stretch ends. -/
structure Window where
  position : Nat
  stop : Nat
  deriving DecidableEq, Repr

namespace Window

/-- The stretch lies in the file. -/
structure Inside (window : Window) (file : Bytes) : Prop where
  ordered : window.position ≤ window.stop
  bounded : window.stop ≤ file.length

/-- The number of unread bytes. -/
def remaining (window : Window) : Nat :=
  window.stop - window.position

/-- The window behind a number of bytes. -/
def skip (window : Window) (count : Nat) : Window :=
  { window with position := window.position + count }

/-- The window of a number of bytes. -/
def front (window : Window) (count : Nat) : Window :=
  { window with stop := window.position + count }

/-- The unread bytes of a window. -/
def cursor (window : Window) (file : Bytes) : Cursor :=
  ⟨window.position, (file.drop window.position).take window.remaining⟩

/-- The window of a whole file. -/
def whole (file : Bytes) : Window :=
  ⟨0, file.length⟩

theorem inside_whole (file : Bytes) : (whole file).Inside file :=
  ⟨Nat.zero_le _, Nat.le_refl _⟩

@[simp]
theorem cursor_whole (file : Bytes) : (whole file).cursor file = ⟨0, file⟩ := by
  simp [cursor, whole, remaining]

variable {window : Window} {file : Bytes}

theorem Inside.length_cursor (inside : window.Inside file) :
    (window.cursor file).rest.length = window.remaining := by
  rcases inside with ⟨ordered, bounded⟩
  simp only [cursor, remaining, List.length_take, List.length_drop]
  omega

theorem Inside.skip (inside : window.Inside file) {count : Nat} (fits : count ≤ window.remaining) :
    (window.skip count).Inside file := by
  rcases inside with ⟨ordered, bounded⟩
  simp only [remaining] at fits
  exact ⟨by simp only [Window.skip]; omega, bounded⟩

theorem Inside.front (inside : window.Inside file) {count : Nat} (fits : count ≤ window.remaining) :
    (window.front count).Inside file := by
  rcases inside with ⟨ordered, bounded⟩
  simp only [remaining] at fits
  exact ⟨by simp only [Window.front]; omega, by simp only [Window.front]; omega⟩

theorem Inside.fits (inside : window.Inside file) {count : Nat} (fits : count ≤ window.remaining) :
    window.position + count ≤ file.length := by
  rcases inside with ⟨ordered, bounded⟩
  simp only [remaining] at fits
  omega

theorem drop_cursor (window : Window) (file : Bytes) (count : Nat) :
    (window.cursor file).rest.drop count = ((window.skip count).cursor file).rest := by
  simp only [cursor, Window.skip, remaining, List.drop_take, List.drop_drop, Nat.sub_sub]

theorem take_cursor {count : Nat} (fits : count ≤ window.remaining) :
    (window.cursor file).rest.take count = (file.drop window.position).take count := by
  rw [cursor, List.take_take, Nat.min_eq_left fits]

end Window

/-- The bytes at some positions of a file. There is no answer where one of them lies outside. -/
def bytesAt? (file : Bytes) (position count : Nat) : Option Bytes :=
  (List.range' position count).mapM fun place => file[place]?

theorem bytesAt?_eq_some {file : Bytes} {position count : Nat}
    (inside : position + count ≤ file.length) :
    bytesAt? file position count = some ((file.drop position).take count) := by
  induction count generalizing position with
  | zero => simp [bytesAt?]
  | succ count ih =>
      have here : position < file.length := by omega
      have later : bytesAt? file (position + 1) count = _ := ih (by omega)
      rw [bytesAt?] at later
      rw [bytesAt?, List.range'_succ, List.mapM_cons, List.getElem?_eq_getElem here, later,
        List.drop_eq_getElem_cons here]
      rfl

/-! ## Steps -/

namespace Reader

/-- Takes the bytes of a part and runs a reader on them. -/
def enter {α : Type} (part : Part) (count : Nat) (reader : Reader α) : Reader α := do
  let offset ← position
  let body ← take part count
  within ⟨offset, body⟩ reader

end Reader

/-- How a reader is made of primitive steps. -/
inductive Steps : {α : Type} → Reader α → Type 1 where
  | done {α : Type} (value : α) : Steps (pure value)
  | refuse {α : Type} (fault : Fault) : Steps (Reader.fail fault : Reader α)
  | locate : Steps Reader.position
  | take (part : Part) (count : Nat) : Steps (Reader.take part count)
  | enter (part : Part) (count : Nat) {α : Type} {reader : Reader α} (inner : Steps reader) :
      Steps (Reader.enter part count reader)
  | finish : Steps ClassUnit.readEnd
  | chain {α β : Type} {reader : Reader α} {next : α → Reader β} (first : Steps reader)
      (rest : ∀ value, Steps (next value)) : Steps (reader >>= next)

/-- What comes of steps in a file: a fault, or a value and what is left of the window. There is no
answer where a position outside of the file is looked up. -/
abbrev Sight (α : Type) :=
  Option (Except Fault (α × Window))

/-- Goes on with the value and the window, if there are any. -/
def Sight.andThen {α β : Type} (sight : Sight α) (next : α → Window → Sight β) : Sight β :=
  match sight with
  | none => none
  | some (.error fault) => some (.error fault)
  | some (.ok (value, left)) => next value left

namespace Steps

/-- Takes steps by looking up positions of a file. -/
def look (file : Bytes) : {α : Type} → {reader : Reader α} → Steps reader → Window → Sight α
  | _, _, done value, window => some (.ok (value, window))
  | _, _, refuse fault, _ => some (.error fault)
  | _, _, locate, window => some (.ok (window.position, window))
  | _, _, take part count, window =>
      if window.remaining < count then
        some (.error (.truncated part window.position count window.remaining))
      else
        (bytesAt? file window.position count).map fun bytes => .ok (bytes, window.skip count)
  | _, _, enter part count inner, window =>
      if window.remaining < count then
        some (.error (.truncated part window.position count window.remaining))
      else
        (bytesAt? file window.position count).bind fun _ =>
          Sight.andThen (inner.look file (window.front count)) fun value _ =>
            some (.ok (value, window.skip count))
  | _, _, finish, window =>
      if window.remaining = 0 then some (.ok ((), window))
      else some (.error (.trailingBytes window.remaining))
  | _, _, chain first rest, window =>
      Sight.andThen (first.look file window) fun value left => (rest value).look file left

end Steps

/-- What comes of steps in a file is what comes of a reader, and a window that is left lies in the file
behind where the steps began. -/
inductive Follows {α : Type} (file : Bytes) (window : Window) :
    Except Fault (α × Cursor) → Sight α → Prop where
  | refused (fault : Fault) : Follows file window (.error fault) (some (.error fault))
  | read (value : α) {left : Window} (inside : left.Inside file)
      (forward : window.position ≤ left.position) (same : left.stop = window.stop) :
      Follows file window (.ok (value, left.cursor file)) (some (.ok (value, left)))

namespace Follows

variable {α β : Type} {file : Bytes} {window other : Window} {outcome : Except Fault (α × Cursor)}
  {sight : Sight α}

/-- What begins later in a window has come forward in it. -/
theorem earlier (follows : Follows file window outcome sight)
    (forward : other.position ≤ window.position) (same : window.stop = other.stop) :
    Follows file other outcome sight := by
  cases follows with
  | refused fault => exact .refused fault
  | read value inside further equal =>
      exact .read value inside (Nat.le_trans forward further) (equal.trans same)

/-- What goes on in the same way comes to the same. -/
theorem andThen (begun : Follows file window outcome sight)
    {next : α → Cursor → Except Fault (β × Cursor)} {look : α → Window → Sight β}
    (after : ∀ value (left : Window), left.Inside file → window.position ≤ left.position →
      left.stop = window.stop → Follows file other (next value (left.cursor file)) (look value left)) :
    Follows file other
      (match outcome with
        | .error fault => .error fault
        | .ok (value, later) => next value later)
      (sight.andThen look) := by
  cases begun with
  | refused fault => exact .refused fault
  | read value inside forward same => exact after value _ inside forward same

end Follows

namespace Steps

variable {file : Bytes} {window : Window}

/-- Bytes are taken from the positions of the window. -/
theorem take_cursor (inside : window.Inside file) (part : Part) (count : Nat) :
    Reader.take part count (window.cursor file) =
      if window.remaining < count then
        .error (.truncated part window.position count window.remaining)
      else
        .ok ((file.drop window.position).take count, (window.skip count).cursor file) := by
  have size := inside.length_cursor
  rw [Reader.take]
  split
  · next front rest split =>
      rcases Bytes.split?_eq_some_iff.1 split with ⟨whole, taken⟩
      have fits : count ≤ window.remaining := by
        rw [← size, whole, List.length_append]
        omega
      have given : front = (window.cursor file).rest.take count := by
        rw [whole, ← taken, List.take_left]
      have left : rest = (window.cursor file).rest.drop count := by
        rw [whole, ← taken, List.drop_left]
      rw [if_neg (Nat.not_lt.2 fits), given, left, Window.take_cursor fits, Window.drop_cursor]
      rfl
  · next short =>
      rw [Bytes.split?_eq_none_iff, size] at short
      rw [if_pos short, size]
      rfl

/-- A reader that is entered runs on a window of its own. -/
theorem enter_cursor (inside : window.Inside file) (part : Part) (count : Nat) {α : Type}
    (reader : Reader α) :
    Reader.enter part count reader (window.cursor file) =
      if window.remaining < count then
        .error (.truncated part window.position count window.remaining)
      else
        match reader ((window.front count).cursor file) with
        | .error fault => .error fault
        | .ok (value, _) => .ok (value, (window.skip count).cursor file) := by
  have body : (⟨window.position, (file.drop window.position).take count⟩ : Cursor) =
      (window.front count).cursor file := by
    simp [Window.cursor, Window.front, Window.remaining]
  rw [Reader.enter, Reader.position_bind, Reader.bind_apply, take_cursor inside]
  by_cases short : window.remaining < count
  · simp only [short, if_true]
  · simp only [short, if_false]
    change Reader.within ⟨window.position, _⟩ reader _ = _
    rw [body]
    cases outcome : reader ((window.front count).cursor file) <;>
      simp only [Reader.within, outcome]

/-- Steps never leave the file, and by positions they give what the reader gives. -/
theorem follows {α : Type} {reader : Reader α} (steps : Steps reader) (inside : window.Inside file) :
    Follows file window (reader (window.cursor file)) (steps.look file window) := by
  induction steps generalizing window with
  | done value => exact .read value inside (Nat.le_refl _) rfl
  | refuse fault => exact .refused fault
  | locate => exact .read window.position inside (Nat.le_refl _) rfl
  | take part count =>
      rw [take_cursor inside, look]
      split
      · exact .refused _
      · next fits =>
          have enough : count ≤ window.remaining := Nat.le_of_not_lt fits
          rw [bytesAt?_eq_some (inside.fits enough)]
          exact .read _ (inside.skip enough) (Nat.le_add_right _ _) rfl
  | enter part count inner ih =>
      rw [enter_cursor inside, look]
      split
      · exact .refused _
      · next fits =>
          have enough : count ≤ window.remaining := Nat.le_of_not_lt fits
          rw [bytesAt?_eq_some (inside.fits enough), Option.bind_some]
          exact (ih (inside.front enough)).andThen fun value _ _ _ _ =>
            .read value (inside.skip enough) (Nat.le_add_right _ _) rfl
  | finish =>
      have size := inside.length_cursor
      simp only [look, ClassUnit.readEnd, List.isEmpty_iff_length_eq_zero, size]
      split
      · exact .read () inside (Nat.le_refl _) rfl
      · exact .refused _
  | chain first rest before after =>
      rw [Reader.bind_apply, look]
      exact (before inside).andThen fun value left inside forward same =>
        (after value inside).earlier forward same

end Steps

namespace Reader

variable {α β : Type}

/-- A reader is made of primitive steps. -/
def Stepwise (reader : Reader α) : Prop :=
  Nonempty (Steps reader)

theorem Stepwise.bind {reader : Reader α} {next : α → Reader β} (before : reader.Stepwise)
    (after : ∀ value, (next value).Stepwise) : (reader >>= next).Stepwise := by
  rcases before with ⟨first⟩
  rcases Classical.nonempty_pi.2 after with ⟨rest⟩
  exact ⟨.chain first rest⟩

theorem composes_stepwise : Composes @Stepwise where
  pure value := ⟨.done value⟩
  fail fault := ⟨.refuse fault⟩
  take part count := ⟨.take part count⟩
  bind := .bind

/-- A refusal in between is a step like any other. -/
theorem Stepwise.guard {refuses : Prop} [Decidable refuses] {fault : Fault} {next : Reader α}
    (after : next.Stepwise) :
    (if refuses then (fail fault : Reader Unit) >>= fun _ => next else next).Stepwise := by
  split
  · exact .bind ⟨.refuse fault⟩ fun _ => after
  · exact after

/-- What a reader leaves of a window is a window again, with the same end. -/
theorem Stepwise.exists_left {reader : Reader α} (stepwise : reader.Stepwise) {file : Bytes}
    {window : Window} (inside : window.Inside file) {value : α} {later : Cursor}
    (succeeds : reader (window.cursor file) = .ok (value, later)) :
    ∃ left : Window, later = left.cursor file ∧ left.Inside file ∧
      window.position ≤ left.position ∧ left.stop = window.stop := by
  rcases stepwise with ⟨steps⟩
  have follows := steps.follows inside
  rw [succeeds] at follows
  generalize steps.look file window = sight at follows
  cases follows with
  | read value inside forward same => exact ⟨_, rfl, inside, forward, same⟩

end Reader

end ApiCoverage.ClassFile
