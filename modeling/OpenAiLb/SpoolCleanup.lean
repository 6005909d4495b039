import OpenAiLb.Headers
import OpenAiLb.Library.Table
import OpenAiLb.Library.Transition

/-!
# Removing abandoned uploads

Once a minute the directory of the uploads is scanned for files that are older than a day. The
scan reads entries of the directory ahead, takes one after the other, looks at its metadata and
removes it if it is old. Meanwhile uploads come and go: their owners remove their files.
-/

namespace OpenAiLb

/-- The name of a file, in bytes. -/
abbrev FileName := List UInt8

/-- A name cut at its last dot. -/
def splitAtDot (name : FileName) : Option (FileName × FileName) :=
  match name.reverse.dropWhile (· ≠ 46) with
  | [] => none
  | _ :: stem => some (stem.reverse, (name.reverse.takeWhile (· ≠ 46)).reverse)

/-- `Path::extension`: what follows the last dot, unless nothing stands before that dot. -/
def extension (name : FileName) : Option FileName :=
  (splitAtDot name).bind fun (stem, extension) => if stem.isEmpty then none else some extension

/-- The scan looks at the file. -/
def isUpload (name : FileName) : Bool := extension name = some (asBytes "upload")

/-- `MAX_RETENTION`, in nanoseconds. -/
def maxRetention : ℕ := 24 * 60 * 60 * 1000000000

/-- `CLEANUP_INTERVAL`, in nanoseconds. -/
def cleanupInterval : ℕ := 60 * 1000000000

/-- `RETENTION`. -/
def retention : ℕ := maxRetention - cleanupInterval

/-- A file of the directory. Times are in nanoseconds. -/
structure SpoolFile where
  name : FileName
  /-- `is_file` of its metadata. -/
  regular : Bool
  modified : Int
  deriving DecidableEq

namespace SpoolFile

/-- `now.duration_since(modified).unwrap_or_default()`. -/
def age (now : Int) (file : SpoolFile) : ℕ := (now - file.modified).toNat

/-- What the scan asks of the metadata. -/
def old (now : Int) (file : SpoolFile) : Bool := file.regular && retention ≤ file.age now

/-- An upload that the scan has to remove. -/
structure Expired (now : Int) (file : SpoolFile) : Prop where
  upload : isUpload file.name = true
  old : file.old now = true

end SpoolFile

/-- Where `cleanup` is. -/
inductive ScanPhase where
  /-- At `next_entry`. -/
  | reading
  /-- Before `metadata`. -/
  | examining (name : FileName)
  /-- Before `remove_file`. -/
  | removing (name : FileName)
  /-- `Ok(())`. -/
  | ended
  /-- An operation returned `NotFound`. -/
  | failed
  deriving DecidableEq

/-- The file that the scan has taken. -/
def ScanPhase.taken : ScanPhase → List FileName
  | examining name | removing name => [name]
  | _ => []

/-- The directory and a scan of it. -/
structure SpoolScan where
  files : Table SpoolFile.name
  /-- The names that were there when the scan began. -/
  initial : List FileName
  /-- The names that were created since. -/
  created : List FileName
  /-- The names that the iterator has read. -/
  listed : List FileName
  /-- The names that it has read and not returned. -/
  buffer : List FileName
  phase : ScanPhase
  /-- The names of the files that their owners have removed. -/
  dropped : List FileName
  /-- The files that the scan has removed. -/
  swept : List SpoolFile

/-- One atomic step. -/
inductive SpoolStep where
  /-- The iterator reads an entry of the directory. -/
  | list (name : FileName)
  /-- `next_entry` returns an entry. -/
  | next
  /-- `next_entry` returns nothing more. -/
  | finish
  | metadata
  | remove
  /-- `AudioSpool::drop`. -/
  | drop (name : FileName)
  /-- `AudioSpool::create` opens a new file, whose name is fresh. -/
  | create (file : SpoolFile)

namespace SpoolScan

/-- A scan begins. -/
structure Started (s : SpoolScan) : Prop where
  initial : s.initial = s.files.keys
  created : s.created = []
  listed : s.listed = []
  buffer : s.buffer = []
  phase : s.phase = .reading
  dropped : s.dropped = []
  swept : s.swept = []

/-- The names that the scan has read and not dealt with. -/
def pending (s : SpoolScan) : List FileName := s.phase.taken ++ s.buffer

/-- `remove_file`: the directory without a file. -/
def without (s : SpoolScan) (name : FileName) : Table SpoolFile.name :=
  s.files.filter fun file => file.name ≠ name

/-- Every file that was there all the time has been read. -/
def AllListed (s : SpoolScan) : Prop := ∀ name ∈ s.files.keys, name ∈ s.initial → name ∈ s.listed

instance decidableAllListed (s : SpoolScan) : Decidable s.AllListed :=
  inferInstanceAs (Decidable (∀ name ∈ s.files.keys, _))

/-- Execute a step. -/
def step (now : Int) (s : SpoolScan) : SpoolStep → Option SpoolScan
  | .list name =>
    if s.phase = .reading ∧ name ∈ s.files.keys ∧ name ∉ s.listed then
      some { s with listed := name :: s.listed, buffer := s.buffer ++ [name] }
    else none
  | .next =>
    match s.phase, s.buffer with
    | .reading, name :: rest =>
      some { s with
        buffer := rest
        phase := if isUpload name then .examining name else .reading }
    | _, _ => none
  | .finish =>
    if s.phase = .reading ∧ s.buffer = [] ∧ s.AllListed then some { s with phase := .ended }
    else none
  | .metadata =>
    match s.phase with
    | .examining name =>
      match s.files.find? name with
      | none => some { s with phase := .failed }
      | some file => some { s with phase := if file.old now then .removing name else .reading }
    | _ => none
  | .remove =>
    match s.phase with
    | .removing name =>
      match s.files.find? name with
      | none => some { s with phase := .failed }
      | some file =>
        some { s with files := s.without name, phase := .reading, swept := file :: s.swept }
    | _ => none
  | .drop name =>
    -- A file that is not there any more is no error here.
    some { s with
      files := s.without name
      dropped := if name ∈ s.files.keys then name :: s.dropped else s.dropped }
  | .create file =>
    if file.name ∈ s.initial ∨ file.name ∈ s.created then none
    else (s.files.insert? file).map fun files =>
      { s with files := files, created := file.name :: s.created }

/-- No owner removes an upload that the scan has read and not dealt with. -/
def Undisturbed (s : SpoolScan) : SpoolStep → Prop
  | .drop name => isUpload name = true → name ∉ s.pending
  | _ => True

variable {now : Int} {start s t : SpoolScan} {a : SpoolStep} {name : FileName} {file : SpoolFile}

/-- The files that are left after a deletion. -/
theorem mem_without : file ∈ s.without name ↔ file ∈ s.files ∧ file.name ≠ name := by
  simp [without]

/-- The names that are left after a deletion. -/
theorem keys_without {other : FileName} :
    other ∈ (s.without name).keys ↔ other ∈ s.files.keys ∧ other ≠ name := by
  constructor
  · intro h
    obtain ⟨file, hfile, rfl⟩ := Table.mem_keys.mp h
    obtain ⟨hmem, hne⟩ := mem_without.mp hfile
    exact ⟨Table.key_mem_keys hmem, hne⟩
  · rintro ⟨hmem, hne⟩
    obtain ⟨file, hfile, rfl⟩ := Table.mem_keys.mp hmem
    exact Table.key_mem_keys (mem_without.mpr ⟨hfile, hne⟩)

/-- What the steps do, branch by branch. -/
inductive Moves (now : Int) (s : SpoolScan) : SpoolStep → SpoolScan → Prop where
  | list {name : FileName} (hphase : s.phase = .reading) (hthere : name ∈ s.files.keys)
    (hfresh : name ∉ s.listed) :
    Moves now s (.list name) { s with listed := name :: s.listed, buffer := s.buffer ++ [name] }
  | next {name : FileName} {rest : List FileName} (hphase : s.phase = .reading)
    (hbuffer : s.buffer = name :: rest) :
    Moves now s .next
      { s with buffer := rest, phase := if isUpload name then .examining name else .reading }
  | finish (hphase : s.phase = .reading) (hbuffer : s.buffer = []) (hall : s.AllListed) :
    Moves now s .finish { s with phase := .ended }
  | missing {a : SpoolStep} {name : FileName} (hlooks : a = .metadata ∨ a = .remove)
    (htaken : s.phase.taken = [name]) (hnone : s.files.find? name = none) :
    Moves now s a { s with phase := .failed }
  | metadata {file : SpoolFile} (hphase : s.phase = .examining file.name) (hfile : file ∈ s.files) :
    Moves now s .metadata
      { s with phase := if file.old now then .removing file.name else .reading }
  | remove {file : SpoolFile} (hphase : s.phase = .removing file.name) (hfile : file ∈ s.files) :
    Moves now s .remove
      { s with files := s.without file.name, phase := .reading, swept := file :: s.swept }
  | drop {name : FileName} :
    Moves now s (.drop name)
      { s with
        files := s.without name
        dropped := if name ∈ s.files.keys then name :: s.dropped else s.dropped }
  | create {file : SpoolFile} {files : Table SpoolFile.name}
    (hfresh : ¬ (file.name ∈ s.initial ∨ file.name ∈ s.created))
    (hfiles : s.files.insert? file = some files) :
    Moves now s (.create file) { s with files := files, created := file.name :: s.created }

/-- **Every step is one of these.** -/
theorem moves_of_step (h : s.step now a = some t) : s.Moves now a t := by
  cases a with
  | list name =>
    obtain ⟨⟨hphase, hthere, hfresh⟩, heq⟩ := Option.ite_none_right_eq_some.mp h
    cases heq
    exact .list hphase hthere hfresh
  | next =>
    simp only [SpoolScan.step] at h
    split at h
    · next name rest hphase hbuffer =>
      cases h
      exact .next hphase hbuffer
    · cases h
  | finish =>
    obtain ⟨⟨hphase, hbuffer, hall⟩, heq⟩ := Option.ite_none_right_eq_some.mp h
    cases heq
    exact .finish hphase hbuffer hall
  | metadata =>
    simp only [SpoolScan.step] at h
    split at h
    · next name hphase =>
      split at h
      · next hnone =>
        cases h
        exact .missing (.inl rfl) (congrArg ScanPhase.taken hphase) hnone
      · next file hsome =>
        cases h
        obtain ⟨hfile, rfl⟩ := Table.find?_eq_some_iff.mp hsome
        exact .metadata hphase hfile
    · cases h
  | remove =>
    simp only [SpoolScan.step] at h
    split at h
    · next name hphase =>
      split at h
      · next hnone =>
        cases h
        exact .missing (.inr rfl) (congrArg ScanPhase.taken hphase) hnone
      · next file hsome =>
        cases h
        obtain ⟨hfile, rfl⟩ := Table.find?_eq_some_iff.mp hsome
        exact .remove hphase hfile
    · cases h
  | drop name =>
    cases h
    exact .drop
  | create file =>
    obtain ⟨hfresh, hmap⟩ := Option.ite_none_left_eq_some.mp h
    obtain ⟨files, hfiles, rfl⟩ := Option.map_eq_some_iff.mp hmap
    exact .create hfresh hfiles

/-- **The invariant of a scan that began at `start`.** -/
structure Sound (now : Int) (s start : SpoolScan) : Prop where
  initial : s.initial = start.initial
  there : ∀ name ∈ s.files.keys, name ∈ s.initial ∨ name ∈ s.created
  known : ∀ name ∈ s.listed, name ∈ s.initial ∨ name ∈ s.created
  listed : ∀ name ∈ s.pending, name ∈ s.listed
  nodup : s.pending.Nodup
  taken : ∀ name ∈ s.phase.taken, isUpload name = true
  removing : ∀ name, s.phase = .removing name → ∀ file ∈ s.files, file.name = name →
    file.old now = true
  swept : ∀ file ∈ s.swept, file.old now = true
  ended : s.phase = .ended → s.buffer = [] ∧ s.AllListed
  /-- An expired upload that was read is still to be dealt with. -/
  waiting : ∀ file ∈ s.files, file.Expired now → file.name ∈ s.listed → file.name ∈ s.pending
  followed : ∀ file ∈ start.files, file ∈ s.files ∨ file.name ∈ s.dropped ∨ file ∈ s.swept

/-- At the start nothing has been listed, created or deleted. -/
theorem Started.sound (h : s.Started) (now : Int) : s.Sound now s := by
  have hpending : s.pending = [] := by rw [pending, h.phase, h.buffer]; rfl
  refine ⟨rfl, ?_, ?_, ?_, ?_, ?_, ?_, ?_, ?_, ?_, fun file hfile => .inl hfile⟩
  · rw [h.initial]
    exact fun name hname => .inl hname
  · rw [h.listed]
    exact fun name hname => absurd hname List.not_mem_nil
  · rw [hpending]
    exact fun name hname => absurd hname List.not_mem_nil
  · rw [hpending]
    exact List.nodup_nil
  · rw [h.phase]
    exact fun name hname => absurd hname List.not_mem_nil
  · rw [h.phase]
    rintro name ⟨⟩
  · rw [h.swept]
    exact fun file hfile => absurd hfile List.not_mem_nil
  · rw [h.phase]
    rintro ⟨⟩
  · rw [h.listed]
    exact fun file _ _ hname => absurd hname List.not_mem_nil

namespace Sound

/-- The iterator reads ahead. -/
theorem list (h : s.Sound now start) (hphase : s.phase = .reading)
    (hthere : name ∈ s.files.keys) (hfresh : name ∉ s.listed) :
    Sound now { s with listed := name :: s.listed, buffer := s.buffer ++ [name] } start := by
  have hpending : ({ s with listed := name :: s.listed, buffer := s.buffer ++ [name] } :
      SpoolScan).pending = s.pending ++ [name] := by
    simp [pending]
  refine ⟨h.initial, h.there, ?_, ?_, ?_, h.taken, h.removing, h.swept, ?_, ?_, h.followed⟩
  · intro other hother
    rcases List.mem_cons.mp hother with rfl | hother
    · exact h.there other hthere
    · exact h.known other hother
  · rw [hpending]
    intro other hother
    rcases List.mem_append.mp hother with hother | hother
    · exact List.mem_cons_of_mem _ (h.listed other hother)
    · obtain rfl := List.mem_singleton.mp hother
      exact List.mem_cons_self
  · rw [hpending]
    refine h.nodup.append (List.nodup_singleton name) ?_
    intro other hother hname
    obtain rfl := List.mem_singleton.mp hname
    exact hfresh (h.listed other hother)
  · intro hended
    exact absurd (hphase.symm.trans hended) (by decide)
  · rw [hpending]
    intro file hfile hexpired hname
    rcases List.mem_cons.mp hname with rfl | hname
    · exact List.mem_append_right _ List.mem_cons_self
    · exact List.mem_append_left _ (h.waiting file hfile hexpired hname)

/-- An entry is returned, and skipped if it is no upload. -/
theorem next (h : s.Sound now start) (hphase : s.phase = .reading) {rest : List FileName}
    (hbuffer : s.buffer = name :: rest) :
    Sound now { s with
      buffer := rest
      phase := if isUpload name then .examining name else .reading } start := by
  have hpending : s.pending = name :: rest := by rw [pending, hphase, hbuffer]; rfl
  have hlisted := h.listed
  have hnodup := h.nodup
  have hwaiting := h.waiting
  rw [hpending] at hlisted hnodup
  cases hupload : isUpload name with
  | true =>
    refine ⟨h.initial, h.there, h.known, hlisted, hnodup, ?_, ?_, h.swept, ?_, ?_, h.followed⟩
    · intro other hother
      obtain rfl := List.mem_singleton.mp hother
      exact hupload
    · rintro other ⟨⟩
    · rintro ⟨⟩
    · intro file hfile hexpired hname
      have hmem := hwaiting file hfile hexpired hname
      rwa [hpending] at hmem
  | false =>
    refine ⟨h.initial, h.there, h.known, ?_, hnodup.of_cons, ?_, ?_, h.swept, ?_, ?_, h.followed⟩
    · exact fun other hother => hlisted other (List.mem_cons_of_mem _ hother)
    · exact fun other hother => absurd hother List.not_mem_nil
    · rintro other ⟨⟩
    · rintro ⟨⟩
    · intro file hfile hexpired hname
      have hmem := hwaiting file hfile hexpired hname
      rw [hpending] at hmem
      rcases List.mem_cons.mp hmem with heq | hmem
      · have hyes := hexpired.upload
        rw [heq, hupload] at hyes
        cases hyes
      · exact hmem

/-- The scan is done with the file that it has taken, which is not expired or not there. -/
theorem release (h : s.Sound now start) (htaken : s.phase.taken = [name]) {phase : ScanPhase}
    (hphase : phase = .reading ∨ phase = .failed)
    (hname : ∀ file ∈ s.files, file.name = name → ¬ file.Expired now) :
    Sound now { s with phase := phase } start := by
  have hpending : s.pending = name :: s.buffer := by rw [pending, htaken]; rfl
  have hafter : ({ s with phase := phase } : SpoolScan).pending = s.buffer := by
    rcases hphase with rfl | rfl <;> rfl
  have hlisted := h.listed
  have hnodup := h.nodup
  rw [hpending] at hlisted hnodup
  refine ⟨h.initial, h.there, h.known, ?_, ?_, ?_, ?_, h.swept, ?_, ?_, h.followed⟩
  · rw [hafter]
    exact fun other hother => hlisted other (List.mem_cons_of_mem _ hother)
  · rw [hafter]
    exact hnodup.of_cons
  · rcases hphase with rfl | rfl <;> exact fun other hother => absurd hother List.not_mem_nil
  · intro other hremoving
    rcases hphase with rfl | rfl <;> cases hremoving
  · intro hended
    rcases hphase with rfl | rfl <;> cases hended
  · rw [hafter]
    intro file hfile hexpired hread
    have hmem := h.waiting file hfile hexpired hread
    rw [hpending] at hmem
    rcases List.mem_cons.mp hmem with heq | hmem
    · exact absurd hexpired (hname file hfile heq)
    · exact hmem

/-- The metadata shows that the file is old. -/
theorem condemn (h : s.Sound now start) (hphase : s.phase = .examining name)
    (hold : ∀ file ∈ s.files, file.name = name → file.old now = true) :
    Sound now { s with phase := .removing name } start := by
  have hpending : ({ s with phase := .removing name } : SpoolScan).pending = s.pending := by
    rw [pending, pending, hphase]
    rfl
  have htaken := h.taken
  rw [hphase] at htaken
  refine ⟨h.initial, h.there, h.known, ?_, ?_, htaken, ?_, h.swept, ?_, ?_, h.followed⟩
  · rw [hpending]
    exact h.listed
  · rw [hpending]
    exact h.nodup
  · intro other hother
    obtain rfl : name = other := ScanPhase.removing.inj hother
    exact hold
  · rintro ⟨⟩
  · rw [hpending]
    exact h.waiting

/-- A file is removed, by its owner or by the scan. -/
theorem remove (h : s.Sound now start) (name : FileName) {dropped : List FileName}
    {swept : List SpoolFile}
    (hdropped : ∀ other ∈ s.dropped, other ∈ dropped) (hswept : ∀ file ∈ s.swept, file ∈ swept)
    (hold : ∀ file ∈ swept, file.old now = true)
    (hgone : ∀ file ∈ s.files, file.name = name → file.name ∈ dropped ∨ file ∈ swept) :
    Sound now { s with files := s.without name, dropped := dropped, swept := swept } start := by
  refine ⟨h.initial, ?_, h.known, h.listed, h.nodup, h.taken, ?_, hold, ?_, ?_, ?_⟩
  · exact fun other hother => h.there other (keys_without.mp hother).1
  · exact fun other hphase file hfile => h.removing other hphase file (mem_without.mp hfile).1
  · intro hended
    obtain ⟨hbuffer, hall⟩ := h.ended hended
    exact ⟨hbuffer, fun other hother => hall other (keys_without.mp hother).1⟩
  · exact fun file hfile => h.waiting file (mem_without.mp hfile).1
  · intro file hfile
    rcases h.followed file hfile with hthere | hdrop | hsweep
    · by_cases hname : file.name = name
      · exact .inr (hgone file hthere hname)
      · exact .inl (mem_without.mpr ⟨hthere, hname⟩)
    · exact .inr (.inl (hdropped _ hdrop))
    · exact .inr (.inr (hswept _ hsweep))

/-- A new upload was not read yet. -/
theorem create (h : s.Sound now start) (hfresh : ¬ (file.name ∈ s.initial ∨ file.name ∈ s.created))
    {files : Table SpoolFile.name} (hfiles : s.files.insert? file = some files) :
    Sound now { s with files := files, created := file.name :: s.created } start := by
  have hnew : file.name ∉ s.listed := fun hlisted => hfresh (h.known _ hlisted)
  have hmem : ∀ other ∈ files, other ∈ s.files ∨ other = file := fun other hother =>
    (Table.mem_of_insert? hfiles).mp hother
  refine ⟨h.initial, ?_, ?_, h.listed, h.nodup, h.taken, ?_, h.swept, ?_, ?_, ?_⟩
  · intro other hother
    rw [Table.keys_of_insert? hfiles] at hother
    rcases List.mem_append.mp hother with hother | hother
    · exact (h.there other hother).imp_right (List.mem_cons_of_mem _)
    · exact .inr (List.mem_cons.mpr (.inl (List.mem_singleton.mp hother)))
  · exact fun other hother => (h.known other hother).imp_right (List.mem_cons_of_mem _)
  · intro other hphase found hfound hname
    rcases hmem found hfound with hfound | rfl
    · exact h.removing other hphase found hfound hname
    · have hpending : other ∈ s.pending := by
        rw [pending, hphase]
        exact List.mem_cons_self
      exact absurd (h.listed other hpending) (hname ▸ hnew)
  · intro hended
    obtain ⟨hbuffer, hall⟩ := h.ended hended
    refine ⟨hbuffer, fun other hother hinitial => ?_⟩
    obtain ⟨found, hfound, rfl⟩ := Table.mem_keys.mp hother
    rcases hmem found hfound with hfound | rfl
    · exact hall _ (Table.key_mem_keys hfound) hinitial
    · exact absurd (.inl hinitial) hfresh
  · intro other hother hexpired hlisted
    rcases hmem other hother with hother | rfl
    · exact h.waiting other hother hexpired hlisted
    · exact absurd hlisted hnew
  · exact fun other hother => (h.followed other hother).imp_left fun hthere =>
      (Table.mem_of_insert? hfiles).mpr (.inl hthere)

/-- The scan ends. -/
theorem finish (h : s.Sound now start) (hphase : s.phase = .reading) (hbuffer : s.buffer = [])
    (hall : s.AllListed) : Sound now { s with phase := .ended } start := by
  have hpending : ({ s with phase := .ended } : SpoolScan).pending = s.pending := by
    rw [pending, pending, hphase]
    rfl
  refine ⟨h.initial, h.there, h.known, ?_, ?_, ?_, ?_, h.swept, fun _ => ⟨hbuffer, hall⟩, ?_,
    h.followed⟩
  · rw [hpending]
    exact h.listed
  · rw [hpending]
    exact h.nodup
  · exact fun other hother => absurd hother List.not_mem_nil
  · rintro other ⟨⟩
  · rw [hpending]
    exact h.waiting

/-- **Every step keeps the invariant.** -/
theorem step (h : s.Sound now start) (hstep : s.step now a = some t) : t.Sound now start := by
  cases moves_of_step hstep with
  | list hphase hthere hfresh => exact h.list hphase hthere hfresh
  | next hphase hbuffer => exact h.next hphase hbuffer
  | finish hphase hbuffer hall => exact h.finish hphase hbuffer hall
  | missing hlooks htaken hnone =>
    refine h.release htaken (.inr rfl) fun file hfile hname _ => ?_
    exact Table.find?_eq_none_iff.mp hnone (hname ▸ Table.key_mem_keys hfile)
  | @metadata file hphase hfile =>
    have htaken : s.phase.taken = [file.name] := congrArg ScanPhase.taken hphase
    have hsame : ∀ other ∈ s.files, other.name = file.name → other = file :=
      fun other hother heq => Table.eq_of_key_eq hother hfile heq
    cases hold : file.old now with
    | true => exact h.condemn hphase fun other hother heq => hsame other hother heq ▸ hold
    | false =>
      refine h.release htaken (.inl rfl) fun other hother heq hexpired => ?_
      have hyes := hexpired.old
      rw [hsame other hother heq, hold] at hyes
      cases hyes
  | @remove file hphase hfile =>
    have htaken : s.phase.taken = [file.name] := congrArg ScanPhase.taken hphase
    have hswept : ∀ other ∈ file :: s.swept, other.old now = true := by
      intro other hother
      rcases List.mem_cons.mp hother with rfl | hother
      · exact h.removing other.name hphase other hfile rfl
      · exact h.swept other hother
    have hremoved := h.remove file.name (fun _ hother => hother)
      (fun _ hother => List.mem_cons_of_mem _ hother) hswept fun other hother heq =>
        .inr (Table.eq_of_key_eq hother hfile heq ▸ List.mem_cons_self)
    refine hremoved.release htaken (.inl rfl) fun other hother heq _ => ?_
    exact (mem_without.mp hother).2 heq
  | @drop name =>
    refine h.remove name ?_ (fun _ hother => hother) h.swept ?_
    · intro other hother
      split
      · exact List.mem_cons_of_mem _ hother
      · exact hother
    · intro file hfile hname
      left
      rw [if_pos (hname ▸ Table.key_mem_keys hfile), hname]
      exact List.mem_cons_self
  | create hfresh hfiles => exact h.create hfresh hfiles

end Sound

/-- The scan will not miss a file: every upload that it has read is there. -/
structure Intact (s : SpoolScan) : Prop where
  running : s.phase ≠ .failed
  present : ∀ name ∈ s.pending, isUpload name = true → name ∈ s.files.keys

/-- A scan that has just started has read nothing that could be missing. -/
theorem Started.intact (h : s.Started) : s.Intact := by
  refine ⟨?_, ?_⟩
  · rw [h.phase]
    decide
  · rw [pending, h.phase, h.buffer]
    exact fun name hname => absurd hname List.not_mem_nil

/-- A scan that has ended missed nothing. -/
theorem Sound.intact_of_ended (h : s.Sound now start) (hended : s.phase = .ended) : s.Intact := by
  refine ⟨?_, ?_⟩
  · rw [hended]
    decide
  · rw [pending, hended, (h.ended hended).1]
    exact fun name hname => absurd hname List.not_mem_nil

/-- Two states with the same uploads that were read and are there. -/
theorem intact_congr (hphase : t.phase = .failed ↔ s.phase = .failed)
    (h : ∀ name, isUpload name = true →
      ((name ∈ t.pending → name ∈ t.files.keys) ↔ (name ∈ s.pending → name ∈ s.files.keys))) :
    t.Intact ↔ s.Intact := by
  constructor
  · intro hintact
    exact ⟨fun hfailed => hintact.running (hphase.mpr hfailed), fun name hname hupload =>
      (h name hupload).mp (fun hmem => hintact.present name hmem hupload) hname⟩
  · intro hintact
    exact ⟨fun hfailed => hintact.running (hphase.mp hfailed), fun name hname hupload =>
      (h name hupload).mpr (fun hmem => hintact.present name hmem hupload) hname⟩

/-- A file that the scan has taken is not there: the scan fails, as it had to. -/
theorem Sound.not_intact_of_missing (h : s.Sound now start) (htaken : s.phase.taken = [name])
    (hnone : s.files.find? name = none) : ¬ s.Intact := by
  intro hintact
  have hmem : name ∈ s.phase.taken := by rw [htaken]; exact List.mem_cons_self
  have hthere := hintact.present name (List.mem_append_left _ hmem) (h.taken name hmem)
  exact Table.find?_eq_none_iff.mp hnone hthere

/-- A scan that failed is not intact. -/
theorem not_intact_of_failed (hphase : s.phase = .failed) : ¬ s.Intact :=
  fun hintact => hintact.running hphase

/-- The iterator reads a name that is there. -/
theorem intact_list (hthere : name ∈ s.files.keys) :
    Intact { s with listed := name :: s.listed, buffer := s.buffer ++ [name] } ↔ s.Intact := by
  refine intact_congr Iff.rfl fun other _ => ?_
  have hpending : ({ s with listed := name :: s.listed, buffer := s.buffer ++ [name] } :
      SpoolScan).pending = s.pending ++ [name] := by
    simp [pending]
  rw [hpending, List.mem_append, List.mem_singleton]
  constructor
  · exact fun hread hmem => hread (.inl hmem)
  · rintro hread (hmem | rfl)
    · exact hread hmem
    · exact hthere

/-- The scan takes an upload, or passes over another file. -/
theorem intact_next {rest : List FileName} (hphase : s.phase = .reading)
    (hbuffer : s.buffer = name :: rest) :
    Intact { s with buffer := rest, phase := if isUpload name then .examining name else .reading } ↔
      s.Intact := by
  have hpending : s.pending = name :: rest := by rw [pending, hphase, hbuffer]; rfl
  cases hupload : isUpload name with
  | true =>
    refine intact_congr ?_ fun other _ => ?_
    · rw [hphase]
      exact iff_of_false (by rintro ⟨⟩) (by rintro ⟨⟩)
    · rw [hpending]
      exact Iff.rfl
  | false =>
    refine intact_congr ?_ fun other hother => ?_
    · rw [hphase]
      exact Iff.rfl
    · have hne : other ≠ name := by
        rintro rfl
        rw [hupload] at hother
        cases hother
      rw [hpending, List.mem_cons, or_iff_right hne]
      exact Iff.rfl

/-- The end of the directory leaves nothing to be missed. -/
theorem intact_finish (hphase : s.phase = .reading) :
    Intact { s with phase := .ended } ↔ s.Intact := by
  refine intact_congr ?_ fun other _ => ?_
  · rw [hphase]
    exact iff_of_false (by rintro ⟨⟩) (by rintro ⟨⟩)
  · rw [pending, pending, hphase]
    exact Iff.rfl

/-- The metadata of a file that is there. -/
theorem intact_metadata (hphase : s.phase = .examining file.name) (hfile : file ∈ s.files) :
    Intact { s with phase := if file.old now then .removing file.name else .reading } ↔
      s.Intact := by
  refine intact_congr ?_ fun other _ => ?_
  · rw [hphase]
    split <;> exact iff_of_false (by rintro ⟨⟩) (by rintro ⟨⟩)
  · have hpending : s.pending = file.name :: s.buffer := by rw [pending, hphase]; rfl
    rw [hpending]
    cases file.old now with
    | true => exact Iff.rfl
    | false =>
      rw [List.mem_cons]
      constructor
      · rintro hread (rfl | hmem)
        · exact Table.key_mem_keys hfile
        · exact hread hmem
      · exact fun hread hmem => hread (.inr hmem)

/-- The file that the scan removes was pending once. -/
theorem intact_remove (hnodup : s.pending.Nodup) (hphase : s.phase = .removing file.name)
    (hfile : file ∈ s.files) :
    Intact { s with files := s.without file.name, phase := .reading, swept := file :: s.swept } ↔
      s.Intact := by
  have hpending : s.pending = file.name :: s.buffer := by rw [pending, hphase]; rfl
  rw [hpending, List.nodup_cons] at hnodup
  refine intact_congr ?_ fun other _ => ?_
  · rw [hphase]
    exact iff_of_false (by rintro ⟨⟩) (by rintro ⟨⟩)
  · rw [hpending, List.mem_cons]
    change (other ∈ s.buffer → other ∈ (s.without file.name).keys) ↔ _
    rw [keys_without]
    constructor
    · rintro hread (rfl | hmem)
      · exact Table.key_mem_keys hfile
      · exact (hread hmem).1
    · intro hread hmem
      refine ⟨hread (.inr hmem), ?_⟩
      rintro rfl
      exact hnodup.1 hmem

/-- **An owner removes a file**: this hurts exactly if it is an upload that the scan has read. -/
theorem intact_drop (dropped : List FileName) :
    Intact { s with files := s.without name, dropped := dropped } ↔
      s.Intact ∧ s.Undisturbed (.drop name) := by
  constructor
  · intro hintact
    refine ⟨⟨hintact.running, fun other hother hupload => ?_⟩, fun hupload hpending => ?_⟩
    · exact (keys_without.mp (hintact.present other hother hupload)).1
    · exact (keys_without.mp (hintact.present name hpending hupload)).2 rfl
  · rintro ⟨hintact, hundisturbed⟩
    refine ⟨hintact.running, fun other hother hupload => ?_⟩
    refine keys_without.mpr ⟨hintact.present other hother hupload, ?_⟩
    rintro rfl
    exact hundisturbed hupload hother

/-- A new file was not read. -/
theorem Sound.intact_create (h : s.Sound now start) {files : Table SpoolFile.name}
    (hfresh : ¬ (file.name ∈ s.initial ∨ file.name ∈ s.created))
    (hfiles : s.files.insert? file = some files) :
    Intact { s with files := files, created := file.name :: s.created } ↔ s.Intact := by
  refine intact_congr Iff.rfl fun other _ => ?_
  change (other ∈ s.pending → other ∈ files.keys) ↔ _
  rw [Table.keys_of_insert? hfiles, List.mem_append, List.mem_singleton]
  constructor
  · intro hread hmem
    rcases hread hmem with hthere | rfl
    · exact hthere
    · exact absurd (h.known _ (h.listed _ hmem)) hfresh
  · exact fun hread hmem => .inl (hread hmem)

/-- **One step**: the uploads that the scan has read stay there exactly if none of them is removed
by its owner. -/
theorem Sound.intact_step (h : s.Sound now start) (hstep : s.step now a = some t) :
    t.Intact ↔ s.Intact ∧ s.Undisturbed a := by
  cases moves_of_step hstep with
  | list hphase hthere hfresh => exact (intact_list hthere).trans (and_iff_left trivial).symm
  | next hphase hbuffer => exact (intact_next hphase hbuffer).trans (and_iff_left trivial).symm
  | finish hphase hbuffer hall => exact (intact_finish hphase).trans (and_iff_left trivial).symm
  | missing hlooks htaken hnone =>
    exact iff_of_false (not_intact_of_failed rfl)
      fun hintact => h.not_intact_of_missing htaken hnone hintact.1
  | metadata hphase hfile =>
    exact (intact_metadata hphase hfile).trans (and_iff_left trivial).symm
  | remove hphase hfile =>
    exact (intact_remove h.nodup hphase hfile).trans (and_iff_left trivial).symm
  | drop => exact intact_drop _
  | create hfresh hfiles =>
    exact (h.intact_create hfresh hfiles).trans (and_iff_left trivial).symm

end SpoolScan

/-- **The cleanup.** A scan removes old files only. Once it is over, it has ended without an error
exactly if no owner removed an upload that the scan had read and not dealt with; and then every
upload that was there when it began, is old and was not removed by its owner has been removed. -/
theorem cleanup_over {now : Int} {start t : SpoolScan} {labels : List SpoolStep}
    (hstart : start.Started) (hrun : Transition.run (SpoolScan.step now) start labels = some t)
    (hover : t.phase = .ended ∨ t.phase = .failed) :
    (∀ file ∈ t.swept, file.regular = true ∧ retention ≤ file.age now) ∧
      (t.phase = .ended ↔
        Transition.Guarded (SpoolScan.step now) SpoolScan.Undisturbed start labels) ∧
      (Transition.Guarded (SpoolScan.step now) SpoolScan.Undisturbed start labels →
        ∀ file ∈ start.files, file.Expired now → file.name ∉ t.dropped →
          file ∈ t.swept ∧ file ∉ t.files) := by
  have hkeep : ∀ {s : SpoolScan} {a : SpoolStep} {next : SpoolScan}, s.Sound now start →
      s.step now a = some next → next.Sound now start := fun h hstep => h.step hstep
  have hsound : t.Sound now start := Transition.invariant_of_run hkeep hrun (hstart.sound now)
  have hended : t.phase = .ended ↔
      Transition.Guarded (SpoolScan.step now) SpoolScan.Undisturbed start labels := by
    have hintact := (Transition.good_iff_guarded hkeep (fun h hstep => h.intact_step hstep)
      (hstart.sound now) hrun).trans (and_iff_right hstart.intact)
    rw [← hintact]
    refine ⟨hsound.intact_of_ended, fun h => ?_⟩
    exact hover.resolve_right h.running
  refine ⟨fun file hfile => ?_, hended, fun hguarded file hfile hexpired hdropped => ?_⟩
  · simpa [SpoolFile.old] using hsound.swept file hfile
  · obtain ⟨hbuffer, hall⟩ := hsound.ended (hended.mpr hguarded)
    have hgone : file ∉ t.files := by
      intro hthere
      -- The file was listed, so the scan would still have to deal with it.
      have hinitial : file.name ∈ t.initial := by
        rw [hsound.initial, hstart.initial]
        exact Table.key_mem_keys hfile
      have hlisted := hall _ (Table.key_mem_keys hthere) hinitial
      have hpending := hsound.waiting file hthere hexpired hlisted
      rw [SpoolScan.pending, hended.mpr hguarded, hbuffer] at hpending
      exact List.not_mem_nil hpending
    rcases hsound.followed file hfile with hthere | hdrop | hswept
    · exact absurd hthere hgone
    · exact absurd hdrop hdropped
    · exact ⟨hswept, hgone⟩

/-- An upload that is still written. -/
def recentUpload : SpoolFile := ⟨asBytes "a.upload", true, 86400000000000⟩

/-- An upload that was abandoned a day before. -/
def abandonedUpload : SpoolFile := ⟨asBytes "b.upload", true, 0⟩

/-- The two uploads have different names. -/
theorem nodup_twoUploads : ([recentUpload, abandonedUpload].map SpoolFile.name).Nodup := by decide

/-- The directory when the scan begins. -/
def twoUploads : SpoolScan where
  files := ⟨[recentUpload, abandonedUpload], nodup_twoUploads⟩
  initial := [recentUpload.name, abandonedUpload.name]
  created := []
  listed := []
  buffer := []
  phase := .reading
  dropped := []
  swept := []

/-- The scan of the two uploads has just started. -/
theorem started_twoUploads : twoUploads.Started := ⟨rfl, rfl, rfl, rfl, rfl, rfl, rfl⟩

/-- The recent upload ends after the scan has looked at it. -/
def quietScan : List SpoolStep :=
  [.list recentUpload.name, .list abandonedUpload.name, .next, .metadata,
    .drop recentUpload.name, .next, .metadata, .remove, .finish]

/-- The recent upload ends before the scan looks at it. -/
def stoppedScan : List SpoolStep :=
  [.list recentUpload.name, .list abandonedUpload.name, .next, .drop recentUpload.name, .metadata]

/-- The statement at a scan that nothing disturbs. -/
theorem cleanup_over_quietScan :
    abandonedUpload ∈
      (Transition.after (SpoolScan.step 86400000000000) twoUploads quietScan).swept := by
  have hrun : Transition.run (SpoolScan.step 86400000000000) twoUploads quietScan =
      some (Transition.after _ _ quietScan) := Transition.run_eq_some_after (by decide)
  obtain ⟨-, hended, hremoved⟩ := cleanup_over started_twoUploads hrun (.inl (by decide))
  exact (hremoved (hended.mp (by decide)) abandonedUpload
    (List.mem_cons_of_mem _ List.mem_cons_self) ⟨by decide, by decide⟩ (by decide)).1

/-- **An upload that ends stops the cleanup**: the abandoned file is still there. -/
theorem stopped_scan_leaves_expired :
    twoUploads.Started ∧
      ∃ t, Transition.run (SpoolScan.step 86400000000000) twoUploads stoppedScan = some t ∧
        t.phase = .failed ∧ abandonedUpload ∈ twoUploads.files ∧
          abandonedUpload.Expired 86400000000000 ∧ abandonedUpload.name ∉ t.dropped ∧
            abandonedUpload ∈ t.files := by
  have hrun : Transition.run (SpoolScan.step 86400000000000) twoUploads stoppedScan =
      some (Transition.after _ _ stoppedScan) := Transition.run_eq_some_after (by decide)
  exact ⟨started_twoUploads, _, hrun, by decide, List.mem_cons_of_mem _ List.mem_cons_self,
    ⟨by decide, by decide⟩, by decide, List.mem_cons_self⟩

end OpenAiLb
