/-
# Capture.SharedNames -- two captures that open one file

The number of a file stands right behind the stem, as the documentation has it
(`nome_passado + iterador(int)`).  So the eleventh file of `a.pcap` and the first one
of `a1.pcap` have one name, and the later `fopen` empties the file of the other
capture.

`neverShare_iff`: two captures whose names differ in the stem only never meet, unless
one stem is the other with a number behind it.
-/
import ExanicCapture.Capture.NamedPath
import ExanicCapture.Theory.Numbered

namespace ExanicCapture.Capture

set_option autoImplicit false

open Theory

/-- A positive number, printed with `%d`. -/
theorem decimal_eq_numeral {idx : Int32} (positive : 1 ≤ idx.toInt) :
    decimal idx = Numbered.numeral 10 Nat.digitChar idx.toInt.toNat := by
  have nonneg : ¬ idx.toInt < 0 := by omega
  have size : idx.toInt.natAbs = idx.toInt.toNat := by omega
  rw [decimal, if_neg nonneg, size, Numbered.toDigits_eq_numeral (by decide) (by omega)]

section

variable {o o' : Options} {savefile savefile' : CStr}

/-- Two names in one directory, with one extension written out and different stems. -/
structure Siblings (a : AskedName savefile o.repoDir o.fileFormat)
    (b : AskedName savefile' o'.repoDir o'.fileFormat) : Prop where
  dir : a.dir = b.dir
  ext : a.ext = b.ext
  explicit : '.' ∈ a.name.tail
  explicit' : '.' ∈ b.name.tail
  stem : a.stem ≠ b.stem

/-- No call of `rotate_file` of the one capture gives `fopen` the path of a call of the
other. -/
def NeverShare (o o' : Options) (savefile savefile' : CStr) : Prop :=
  ∀ host host' env env' (st st' : State),
    1 ≤ (st.fileNo + 1).toInt → 1 ≤ (st'.fileNo + 1).toInt →
      ∀ path ∈ fopened (rotateFile host o savefile env st).events,
        path ∉ fopened (rotateFile host' o' savefile' env' st').events

/-- The stem of `b` is that of `a` with a number behind it, such that one digit more
still makes an index and a name for `file_name_buf`. -/
def Extends (a : AskedName savefile o.repoDir o.fileFormat)
    (b : AskedName savefile' o'.repoDir o'.fileFormat) : Prop :=
  ∃ k : ℕ, 1 ≤ k ∧ k ≤ 214748364 ∧ b.stem = a.stem ++ Nat.toDigits 10 k ∧
    b.dir.length + b.stem.length + b.ext.length + 3 < fileNameBufSize

theorem NeverShare.symm (apart : NeverShare o o' savefile savefile') :
    NeverShare o' o savefile' savefile := by
  intro host host' env env' st st' positive positive' path opened opened'
  exact apart host' host env' env st' st positive' positive path opened' opened

/-- What a call opens, and that it is short enough. -/
theorem fopened_path {host : ByteOrder} {env : RotateEnv} {st : State} {path : CStr}
    (a : AskedName savefile o.repoDir o.fileFormat) (fits : a.Fits)
    (opened : path ∈ fopened (rotateFile host o savefile env st).events) :
    path = a.path (st.fileNo + 1) ∧ path.length < fileNameBufSize := by
  obtain ⟨rfl, short⟩ := rotatedPath_of_fopened opened
  refine ⟨?_, short⟩
  rw [a.rotatedPath_eq_cutPath, (a.cutPath_eq_path_iff _).2 fits]

variable {a : AskedName savefile o.repoDir o.fileFormat}
  {b : AskedName savefile' o'.repoDir o'.fileFormat}

/-- Two captures that share a path have stems of which one continues the other. -/
theorem extends_of_shared (siblings : Siblings a b) {n m : Int32} (positive : 1 ≤ n.toInt)
    (positive' : 1 ≤ m.toInt) (same : a.path n = b.path m)
    (short : (a.path n).length < fileNameBufSize) : Extends a b ∨ Extends b a := by
  have highest := n.toInt_lt
  have highest' := m.toInt_lt
  have length : ∀ idx : Int32, 0 < (decimal idx).length := by
    intro idx
    unfold decimal
    split
    · exact Nat.succ_pos _
    · exact Nat.length_toDigits_pos
  have size := length n
  have size' := length m
  have short' := same ▸ short
  simp only [AskedName.path, List.length_append, List.length_cons] at short short'
  have stems : a.stem ++ decimal n ++ '.' :: b.ext = b.stem ++ decimal m ++ '.' :: b.ext := by
    simpa [AskedName.path, siblings.dir, siblings.ext] using same
  have stems := List.append_cancel_right stems
  rw [decimal_eq_numeral positive, decimal_eq_numeral positive'] at stems
  obtain ⟨k, room, longer⟩ := Numbered.stem_of_shared (by decide) Numbered.digitChar_injOn
    (by omega) (show n.toInt.toNat ≤ 2147483647 by omega) (by omega) (by omega) stems
  have number : 1 ≤ k := by
    by_contra none
    obtain rfl : k = 0 := by omega
    simp only [Numbered.numeral_zero, List.append_nil] at longer
    exact siblings.stem (longer.elim Eq.symm id)
  rw [← Numbered.toDigits_eq_numeral (by decide) (by omega)] at longer
  rcases longer with stem | stem
  · exact Or.inl ⟨k, number, by omega, stem, by omega⟩
  · exact Or.inr ⟨k, number, by omega, stem, by omega⟩

/-- The number of the longer stem with a 1 behind it, and 1 behind the longer stem. -/
theorem path_shared (siblings : Siblings a b) {k : ℕ} (positive : 1 ≤ k) (small : k ≤ 214748364)
    (stem : b.stem = a.stem ++ Nat.toDigits 10 k) :
    a.path (.ofNat (10 * k + 1)) = b.path 1 := by
  have value : (Int32.ofNat (10 * k + 1)).toInt = (10 * k + 1 : ℕ) :=
    Int32.toInt_ofNat_of_lt (by omega)
  have one : decimal 1 = Numbered.numeral 10 Nat.digitChar 1 := decimal_eq_numeral (by decide)
  have numbers : a.stem ++ decimal (.ofNat (10 * k + 1)) = b.stem ++ decimal 1 := by
    rw [decimal_eq_numeral (by omega), value, Int.toNat_natCast, Numbered.numbered_one (by decide),
      one, stem, Numbered.toDigits_eq_numeral (by decide) positive]
  have joined : ∀ front : CStr, front ++ (a.stem ++ decimal (.ofNat (10 * k + 1))) =
      front ++ (b.stem ++ decimal 1) := fun front => congrArg (front ++ ·) numbers
  simpa [AskedName.path, siblings.dir, siblings.ext] using
    congrArg (· ++ '.' :: b.ext) (joined (b.dir ++ ['/']))

/-- A call with this number on a file system that refuses nothing. -/
theorem opens_path (host : ByteOrder) (a : AskedName savefile o.repoDir o.fileFormat)
    (fits : a.Fits) (fileNo : Int32) (short : (a.path (fileNo + 1)).length < fileNameBufSize) :
    ∃ env st, st.fileNo = fileNo ∧
      a.path (fileNo + 1) ∈ fopened (rotateFile host o savefile env st).events := by
  have whole : rotatedPath savefile o.repoDir o.fileFormat (fileNo + 1) = a.path (fileNo + 1) := by
    rw [a.rotatedPath_eq_cutPath, (a.cutPath_eq_path_iff _).2 fits]
  refine ⟨{ stat := some true, mkdir := true, fopen := true, writes := fun _ => none },
    { State.initial with fileNo }, rfl, ?_⟩
  rw [rotateFile_fopened]
  · exact whole ▸ List.mem_singleton_self _
  · unfold ensureDir
    split <;> rfl
  · exact whole.symm ▸ short

theorem not_neverShare (siblings : Siblings a b) (fits : a.Fits) (fits' : b.Fits)
    (longer : Extends a b) : ¬ NeverShare o o' savefile savefile' := by
  obtain ⟨k, positive, small, stem, room⟩ := longer
  have same := path_shared siblings positive small stem
  have short : (b.path (0 + 1)).length < fileNameBufSize := by
    have digit : (decimal (0 + 1)).length = 1 := by decide
    simp only [AskedName.path, List.length_append, List.length_cons, digit]
    omega
  have number : Int32.ofNat (10 * k) + 1 = .ofNat (10 * k + 1) := (Int32.ofNat_add (10 * k) 1).symm
  obtain ⟨env, st, fileNo, opened⟩ := opens_path .little a fits (.ofNat (10 * k))
    (by rw [number, same]; exact short)
  obtain ⟨env', st', fileNo', opened'⟩ := opens_path .little b fits' 0 short
  rw [number, same] at opened
  intro apart
  refine apart .little .little env env' st st' ?_ ?_ _ opened opened'
  · rw [fileNo, number, Int32.toInt_ofNat_of_lt (by omega)]
    omega
  · rw [fileNo']
    decide

theorem Siblings.symm (siblings : Siblings a b) : Siblings b a where
  dir := siblings.dir.symm
  ext := siblings.ext.symm
  explicit := siblings.explicit'
  explicit' := siblings.explicit
  stem := siblings.stem.symm

/-- **When two captures never share a file.** -/
theorem neverShare_iff (siblings : Siblings a b) (fits : a.Fits) (fits' : b.Fits) :
    NeverShare o o' savefile savefile' ↔ ¬ Extends a b ∧ ¬ Extends b a := by
  constructor
  · intro apart
    constructor
    · intro longer
      exact not_neverShare siblings fits fits' longer apart
    · intro longer
      exact not_neverShare siblings.symm fits' fits longer apart.symm
  · rintro ⟨notLonger, notLonger'⟩ host host' env env' st st' positive positive' path opened opened'
    obtain ⟨rfl, short⟩ := fopened_path a fits opened
    obtain ⟨same, -⟩ := fopened_path b fits' opened'
    exact (extends_of_shared siblings positive positive' same short).elim notLonger notLonger'

end

/-! ## Poles: `a.e`, `a1.e` and `b.e` -/

namespace Poles

def askedA : AskedName ['a', '.', 'e'] options.repoDir options.fileFormat where
  dir := ['.']
  name := ['a', '.', 'e']
  stem := ['a']
  ext := ['e']
  located := Or.inr ⟨by decide, rfl, rfl⟩
  named := Or.inl ⟨⟨rfl, by decide⟩, by decide⟩

def askedA1 : AskedName ['a', '1', '.', 'e'] options.repoDir options.fileFormat where
  dir := ['.']
  name := ['a', '1', '.', 'e']
  stem := ['a', '1']
  ext := ['e']
  located := Or.inr ⟨by decide, rfl, rfl⟩
  named := Or.inl ⟨⟨rfl, by decide⟩, by decide⟩

def askedB : AskedName ['b', '.', 'e'] options.repoDir options.fileFormat where
  dir := ['.']
  name := ['b', '.', 'e']
  stem := ['b']
  ext := ['e']
  located := Or.inr ⟨by decide, rfl, rfl⟩
  named := Or.inl ⟨⟨rfl, by decide⟩, by decide⟩

theorem neverShare_a_b : NeverShare options options ['a', '.', 'e'] ['b', '.', 'e'] := by
  refine (neverShare_iff (a := askedA) (b := askedB) ⟨rfl, rfl, by decide, by decide, by decide⟩
    ⟨by decide, by decide, by decide⟩ ⟨by decide, by decide, by decide⟩).2 ⟨?_, ?_⟩
  · rintro ⟨k, -, -, stem, -⟩
    exact absurd (List.cons.inj stem).1 (by decide)
  · rintro ⟨k, -, -, stem, -⟩
    exact absurd (List.cons.inj stem).1 (by decide)

/-- The eleventh file of `a.e` is the first one of `a1.e`. -/
theorem eleventh_is_first :
    Siblings askedA askedA1 ∧
      (fopened (rotateFile .little options ['a', '.', 'e'] disk
          { State.initial with fileNo := 10 }).events = [['.', '/', 'a', '1', '1', '.', 'e']] ∧
        fopened (rotateFile .little options ['a', '1', '.', 'e'] disk State.initial).events =
          [['.', '/', 'a', '1', '1', '.', 'e']]) ∧
      ¬ ∀ o o' savefile savefile' (a : AskedName savefile o.repoDir o.fileFormat)
        (b : AskedName savefile' o'.repoDir o'.fileFormat),
        Siblings a b → NeverShare o o' savefile savefile' := by
  have siblings : Siblings askedA askedA1 := ⟨rfl, rfl, by decide, by decide, by decide⟩
  have eleventh : fopened (rotateFile .little options ['a', '.', 'e'] disk
      { State.initial with fileNo := 10 }).events = [['.', '/', 'a', '1', '1', '.', 'e']] := by
    decide
  have first : fopened (rotateFile .little options ['a', '1', '.', 'e'] disk
      State.initial).events = [['.', '/', 'a', '1', '1', '.', 'e']] := by
    decide
  refine ⟨siblings, ⟨eleventh, first⟩, ?_⟩
  intro always
  refine always options options _ _ askedA askedA1 siblings .little .little disk disk
    { State.initial with fileNo := 10 } State.initial (by decide) (by decide) _
    (eleventh ▸ List.mem_singleton_self _) ?_
  rw [first]
  exact List.mem_singleton_self _

end Poles

end ExanicCapture.Capture
