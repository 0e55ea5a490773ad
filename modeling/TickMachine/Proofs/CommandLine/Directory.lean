import TickMachine.CommandLine.Directory
import TickMachine.Proofs.Results

/-! # Reading after writing

A path that leads to a file does so whatever the directory holds, since no part of it but the last
one may be the name of a file. So what has been written at a path is read there, and a file at
another place is read as before. -/

namespace TickMachine.CommandLine.Directory

variable {directory after : Directory} {text other : String} {content bytes : ByteArray}

/-- The file that a path leads to, whether it is there or not. -/
def file? (directory : Directory) (text : String) : Option String :=
  match directory.locateText text with
  | .ok (_, .named place name) => some (place.pathTo name)
  | _ => none

/-- Whether a file can be written at a path. -/
def Writable (directory : Directory) (text : String) : Prop :=
  ∃ content after, directory.write text content = .ok after

/-! ## Paths -/

theorem enter_of_ok {place next : Place} {part : String}
    (entered : directory.enter place part = .ok next) (after : Directory) :
    after.enter place part = .ok next := by
  unfold enter at entered ⊢
  split at entered
  · next here => rw [if_pos here, entered]
  · next notHere =>
    split at entered
    · next around => rw [if_neg notHere, if_pos around, entered]
    · obtain ⟨found, -, entered⟩ := bind_ok entered
      cases found <;> cases entered

theorem foldlM_enter_of_ok {parts : List String} {place last : Place}
    (entered : parts.foldlM directory.enter place = .ok last) (after : Directory) :
    parts.foldlM after.enter place = .ok last := by
  induction parts generalizing place with
  | nil => exact entered
  | cons part parts ih =>
    rw [List.foldlM_cons] at entered ⊢
    obtain ⟨next, first, rest⟩ := bind_ok entered
    rw [enter_of_ok first after]
    exact ih rest

theorem locate_of_ok {path : Path} {location : Location}
    (located : directory.locate path = .ok location) (after : Directory) :
    after.locate path = .ok location := by
  unfold locate at located ⊢
  obtain ⟨place, entered, led⟩ := bind_ok located
  rw [foldlM_enter_of_ok entered after]
  exact led

/-- A path leads to the same location in every directory. -/
theorem locateText_of_ok {found : Path × Location} (located : directory.locateText text = .ok found)
    (after : Directory) : after.locateText text = .ok found := by
  unfold locateText at located ⊢
  split at located
  · cases located
  · next spelled =>
    split at located
    · cases located
    · next short =>
      obtain ⟨location, led, same⟩ := bind_ok located
      simp only [spelled, short, if_false, locate_of_ok led after]
      exact same

/-! ## Files -/

/-- Taking one file away does not hide another one. -/
theorem lookup_filter {file name : String} (differs : name ≠ file)
    (files : List (String × ByteArray)) :
    (files.filter (·.1 != file)).lookup name = files.lookup name := by
  have unlike : (name == file) = false := beq_false_of_ne differs
  induction files with
  | nil => rfl
  | cons entry entries ih =>
    obtain ⟨key, held⟩ := entry
    by_cases taken : key = file
    · simp [taken, ih, List.lookup_cons, unlike]
    · simp [taken, ih, List.lookup_cons]

theorem find?_put (file name : String) :
    (directory.put file content).find? name =
      if name = file then some content else directory.find? name := by
  unfold put find?
  by_cases same : name = file
  · simp [same]
  · have unlike : (name == file) = false := beq_false_of_ne same
    rw [if_neg same, List.lookup_cons, unlike]
    exact lookup_filter same directory.files

/-- What a successful reading has found. -/
theorem read_ok (done : directory.read text = .ok bytes) :
    ∃ path place name, directory.locateText text = .ok (path, .named place name) ∧
      path.slashed = false ∧ directory.look place name = .ok (some bytes) := by
  unfold read at done
  obtain ⟨⟨path, location⟩, located, done⟩ := bind_ok done
  cases location with
  | directory => cases done
  | named place name =>
    obtain ⟨found, looked, done⟩ := bind_ok done
    cases found with
    | none => cases done
    | some held =>
      simp only at done
      split at done
      · cases done
      · next unslashed =>
        cases done
        exact ⟨path, place, name, located, by simpa using unslashed, looked⟩

/-- What a successful writing has done. -/
theorem write_ok (done : directory.write text content = .ok after) :
    ∃ path place name found, directory.locateText text = .ok (path, .named place name) ∧
      path.slashed = false ∧ directory.look place name = .ok found ∧
      after = directory.put (place.pathTo name) content := by
  unfold write at done
  obtain ⟨⟨path, location⟩, located, done⟩ := bind_ok done
  cases location with
  | directory => cases done
  | named place name =>
    simp only at done
    split at done
    · cases done
    · next unslashed =>
      obtain ⟨found, looked, done⟩ := bind_ok done
      cases done
      exact ⟨path, place, name, found, located, by simpa using unslashed, looked, rfl⟩

theorem look_of_ok {place : Place} {name : String} {found : Option ByteArray}
    (looked : directory.look place name = .ok found) (after : Directory) :
    after.look place name = .ok (after.find? (place.pathTo name)) := by
  unfold look at looked ⊢
  split at looked
  · cases looked
  · next short => rw [if_neg short]

/-- Where something can be written, anything can. -/
theorem exists_write (writable : directory.Writable text) (content : ByteArray) :
    ∃ after, directory.write text content = .ok after := by
  obtain ⟨other, after, done⟩ := writable
  obtain ⟨path, place, name, found, located, unslashed, looked, -⟩ := write_ok done
  refine ⟨directory.put (place.pathTo name) content, ?_⟩
  simp only [write, located, bind, Except.bind, unslashed, looked]
  rfl

/-- What has been written is read. -/
theorem read_of_write (done : directory.write text content = .ok after) :
    after.read text = .ok content := by
  obtain ⟨path, place, name, found, located, unslashed, looked, rfl⟩ := write_ok done
  have there := look_of_ok looked (directory.put (place.pathTo name) content)
  rw [find?_put, if_pos rfl] at there
  simp only [read, locateText_of_ok located, bind, Except.bind, there, unslashed]
  rfl

theorem file?_of_located {path : Path} {place : Place} {name : String}
    (located : directory.locateText text = .ok (path, .named place name)) :
    directory.file? text = some (place.pathTo name) := by
  rw [file?, located]

/-- A file that keeps its content is read as before. -/
theorem read_of_find?_eq {file : String} (leads : directory.file? other = some file)
    (same : after.find? file = directory.find? file)
    (held : directory.read other = .ok bytes) : after.read other = .ok bytes := by
  obtain ⟨path, place, name, located, unslashed, looked⟩ := read_ok held
  rw [file?_of_located located, Option.some.injEq] at leads
  have before := (look_of_ok looked directory).symm.trans looked
  have there := look_of_ok looked after
  rw [leads, same, ← leads, before] at there
  simp only [read, locateText_of_ok located, bind, Except.bind, there, unslashed]
  rfl

/-- A file at another place is read as before. -/
theorem read_of_write_other (done : directory.write text content = .ok after)
    (apart : directory.file? text ≠ directory.file? other)
    (held : directory.read other = .ok bytes) : after.read other = .ok bytes := by
  obtain ⟨path, place, name, found, located, -, -, rfl⟩ := write_ok done
  obtain ⟨path', place', name', located', -⟩ := read_ok held
  have leads := file?_of_located located'
  rw [file?_of_located located, leads] at apart
  apply read_of_find?_eq leads _ held
  rw [find?_put, if_neg fun same => apart (congrArg some same.symm)]

theorem ne_empty_of_located {found : Path × Location}
    (located : directory.locateText text = .ok found) : text ≠ "" := by
  rintro rfl
  cases located

theorem ne_empty_of_read (held : directory.read text = .ok bytes) : text ≠ "" := by
  obtain ⟨path, place, name, located, -⟩ := read_ok held
  exact ne_empty_of_located located

theorem ne_empty_of_writable (writable : directory.Writable text) : text ≠ "" := by
  obtain ⟨content, after, done⟩ := writable
  obtain ⟨path, place, name, found, located, -⟩ := write_ok done
  exact ne_empty_of_located located

end TickMachine.CommandLine.Directory
