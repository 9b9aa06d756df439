import JobBinding.Environment
import JobBinding.Gather.Collector
import JobBinding.Proofs.Except
import JobBinding.Proofs.Text.Blank
import JobBinding.Proofs.Text.Decimal

/-!
# The launcher that places a process

The first launcher whose rank variable is set (`IsChosen`) decides the place of a process: its two
variables announce a placement (`Announces`) or are at fault (`Faulty`), and nothing else in the
environment matters. Whatever is announced is a place in a group, since the rank lies below the size
(`ofEnvironment_spec`).
-/

namespace JobBinding

/-! ## Numbers in variables -/

namespace Environment

variable {env : Environment} {name value : String} {n : UInt32}

/-- Whether the value of a variable is a number: between white space stands a numeral of it. -/
def IsNumber (value : String) (n : UInt32) : Prop :=
  ∃ t, Text.IsTrimmed value.toList t ∧ Text.Decimal.IsNumeral t n.toNat

/-- Whether a variable is set to a number. -/
def Holds (env : Environment) (name : String) (n : UInt32) : Prop :=
  ∃ value, env name = some value ∧ IsNumber value n

/-- Whether a value is a number as it is commonly written: its decimal digits without more zeros
than it needs, perhaps after a plus sign, perhaps between white space. -/
def IsWritten (value : String) (n : UInt32) : Prop :=
  ∃ front sign back, value = front ++ sign ++ toString n.toNat ++ back ∧
    (sign = "" ∨ sign = "+") ∧ ∀ c ∈ front.toList ++ back.toList, Text.isBlank c = true

lemma readBelow?_trim_eq_some_iff {m : Nat} :
    Text.Decimal.readBelow? UInt32.size (Text.trim value) = some m ↔
      m < UInt32.size ∧ IsNumber value m.toUInt32 := by
  rw [Text.Decimal.readBelow?_eq_some_iff, and_comm, Text.trim, String.toList_ofList]
  refine and_congr_right fun hm => ?_
  have hm' : m.toUInt32.toNat = m := UInt32.toNat_ofNat_of_lt' hm
  rw [IsNumber, hm']
  constructor
  · intro h
    exact ⟨_, Text.isTrimmed_trimChars _, h⟩
  · rintro ⟨t, htrim, h⟩
    rwa [htrim.trimChars_eq]

lemma parseNumber_of_isNumber (h : IsNumber value n) (name : String) :
    parseNumber name value = .ok n := by
  have hread : Text.Decimal.readBelow? UInt32.size (Text.trim value) = some n.toNat := by
    rw [readBelow?_trim_eq_some_iff]
    exact ⟨n.toNat_lt, by simpa using h⟩
  rw [parseNumber, hread]
  simp

lemma parseNumber_of_not_isNumber (h : ∀ n, ¬ IsNumber value n) (name : String) :
    parseNumber name value = .error (.invalidVariable name value) := by
  rw [parseNumber]
  split
  · next m hm => exact absurd (readBelow?_trim_eq_some_iff.1 hm).2 (h _)
  · rfl

lemma Holds.parseNumber_eq (h : env.Holds name n) (hvalue : env name = some value) :
    parseNumber name value = .ok n := by
  obtain ⟨value', hvalue', hnumber⟩ := h
  cases hvalue.symm.trans hvalue'
  exact parseNumber_of_isNumber hnumber name

lemma required_bind (hvalue : env name = some value) :
    env.required name >>= parseNumber name = parseNumber name value := by
  rw [required, hvalue, ok_bind]

lemma Holds.required_bind_eq (h : env.Holds name n) :
    env.required name >>= parseNumber name = .ok n := by
  obtain ⟨value, hvalue, hnumber⟩ := h
  rw [required_bind hvalue, parseNumber_of_isNumber hnumber]

lemma isWritten_toString (n : UInt32) : IsWritten (toString n.toNat) n :=
  ⟨"", "", "", by simp, .inl rfl, by simp⟩

lemma IsWritten.isNumber (h : IsWritten value n) : IsNumber value n := by
  obtain ⟨front, sign, back, rfl, hsign, hblank⟩ := h
  have hsign' : sign.toList = [] ∨ sign.toList = ['+'] := by
    rcases hsign with rfl | rfl
    · exact .inl rfl
    · exact .inr rfl
  have hnumeral := Text.Decimal.isNumeral_toDigits n.toNat hsign'
  refine ⟨_, ?_, hnumeral⟩
  have htext : (front ++ sign ++ toString n.toNat ++ back).toList =
      front.toList ++ (sign.toList ++ Nat.toDigits 10 n.toNat) ++ back.toList := by
    simp only [String.toList_append, Text.Decimal.toList_toString, List.append_assoc]
  rw [htext]
  exact Text.isTrimmed_of_forall hblank fun c => hnumeral.isBlank_eq_false

end Environment

namespace Placement

open Environment

variable {env other : Environment} {pair : String × String} {p : Placement} {fault : Failure}
  {value : String}

/-! ## One launcher -/

/-- Whether the variables of a launcher announce a placement. -/
structure Announces (env : Environment) (pair : String × String) (p : Placement) : Prop where
  rank : env.Holds pair.1 p.rank
  size : env.Holds pair.2 p.size
  rank_lt_size : p.rank < p.size

/-- What is wrong with the variables of a launcher, the rank variable of which is set. -/
inductive Faulty (env : Environment) (pair : String × String) : Failure → Prop
  | rank {value : String} (hvalue : env pair.1 = some value) (h : ∀ n, ¬ IsNumber value n) :
    Faulty env pair (.invalidVariable pair.1 value)
  | noSize {rank : UInt32} (hrank : env.Holds pair.1 rank) (hnone : env pair.2 = none) :
    Faulty env pair (.missingVariable pair.2)
  | size {rank : UInt32} {value : String} (hrank : env.Holds pair.1 rank)
    (hvalue : env pair.2 = some value) (h : ∀ n, ¬ IsNumber value n) :
    Faulty env pair (.invalidVariable pair.2 value)
  | order {rank size : UInt32} (hrank : env.Holds pair.1 rank) (hsize : env.Holds pair.2 size)
    (hle : size ≤ rank) : Faulty env pair (.invalidVariable pair.1 (toString rank.toNat))

lemma ofPair_of_announces (h : Announces env pair p) (hvalue : env pair.1 = some value) :
    ofPair env pair.1 pair.2 value = .ok p := by
  rw [ofPair, h.rank.parseNumber_eq hvalue, h.size.required_bind_eq]
  exact if_pos h.rank_lt_size

lemma ofPair_of_faulty (h : Faulty env pair fault) (hvalue : env pair.1 = some value) :
    ofPair env pair.1 pair.2 value = .error fault := by
  cases h with
  | rank hvalue' h =>
    cases hvalue.symm.trans hvalue'
    rw [ofPair, parseNumber_of_not_isNumber h]
    rfl
  | noSize hrank hnone =>
    rw [ofPair, hrank.parseNumber_eq hvalue, required, hnone]
    rfl
  | size hrank hsize h =>
    rw [ofPair, hrank.parseNumber_eq hvalue, required_bind hsize, parseNumber_of_not_isNumber h]
    rfl
  | order hrank hsize hle =>
    rw [ofPair, hrank.parseNumber_eq hvalue, hsize.required_bind_eq]
    exact if_neg (UInt32.not_lt.2 hle)

lemma announces_or_faulty (h : (env pair.1).isSome) :
    (∃ p, Announces env pair p) ∨ ∃ fault, Faulty env pair fault := by
  obtain ⟨value, hvalue⟩ := Option.isSome_iff_exists.1 h
  by_cases hrank : ∃ rank, IsNumber value rank
  · obtain ⟨rank, hrank⟩ := hrank
    have hrank : env.Holds pair.1 rank := ⟨value, hvalue, hrank⟩
    cases hsize : env pair.2 with
    | none => exact .inr ⟨_, .noSize hrank hsize⟩
    | some sizeValue =>
      by_cases hnumber : ∃ size, IsNumber sizeValue size
      · obtain ⟨size, hnumber⟩ := hnumber
        have hsize : env.Holds pair.2 size := ⟨sizeValue, hsize, hnumber⟩
        rcases UInt32.lt_or_le rank size with hlt | hle
        · exact .inl ⟨⟨rank, size⟩, hrank, hsize, hlt⟩
        · exact .inr ⟨_, .order hrank hsize hle⟩
      · exact .inr ⟨_, .size hrank hsize (not_exists.1 hnumber)⟩
  · exact .inr ⟨_, .rank hvalue (not_exists.1 hrank)⟩

/-! ## The first launcher -/

/-- Whether a launcher decides: its rank variable is set, and that of no launcher before it is. -/
def IsChosen (env : Environment) (pair : String × String) : Prop :=
  ∃ before after, launchers = before ++ pair :: after ∧ (∀ q ∈ before, env q.1 = none) ∧
    (env pair.1).isSome

/-- Whether a variable is for the size of a group, but the rank variable of its launcher is not
set. -/
def IsOrphan (env : Environment) (name : String) : Prop :=
  ∃ pair ∈ launchers, pair.2 = name ∧ env pair.1 = none

lemma ofFirst_append {before : List (String × String)} (h : ∀ q ∈ before, env q.1 = none)
    (pairs : List (String × String)) : ofFirst env (before ++ pairs) = ofFirst env pairs := by
  induction before with
  | nil => rfl
  | cons q before ih =>
    obtain ⟨hq, hbefore⟩ := List.forall_mem_cons.1 h
    rw [List.cons_append, ofFirst, hq]
    exact ih hbefore

lemma ofEnvironment_of_isChosen (h : IsChosen env pair) (hvalue : env pair.1 = some value) :
    ofEnvironment env = ofPair env pair.1 pair.2 value := by
  obtain ⟨before, after, hpairs, hbefore, -⟩ := h
  rw [ofEnvironment, hpairs, ofFirst_append hbefore, ofFirst, hvalue]

lemma ofEnvironment_of_none (h : ∀ q ∈ launchers, env q.1 = none) :
    ofEnvironment env = .ok single := by
  have hpairs := ofFirst_append h []
  rw [List.append_nil] at hpairs
  rw [ofEnvironment, hpairs, ofFirst]

lemma none_or_isChosen (env : Environment) :
    (∀ q ∈ launchers, env q.1 = none) ∨ ∃ pair, IsChosen env pair := by
  cases hfind : launchers.find? fun q => (env q.1).isSome with
  | none => exact .inl (by simpa using hfind)
  | some pair =>
    obtain ⟨hsome, before, after, hpairs, hbefore⟩ := List.find?_eq_some_iff_append.1 hfind
    exact .inr ⟨pair, before, after, hpairs, by simpa using hbefore, hsome⟩

lemma IsChosen.mem (h : IsChosen env pair) : pair ∈ launchers := by
  obtain ⟨before, after, hpairs, -⟩ := h
  rw [hpairs]
  simp

lemma IsChosen.outcomes (h : IsChosen env pair) :
    (∀ p, ofEnvironment env = .ok p ↔ Announces env pair p) ∧
      ∀ fault, ofEnvironment env = .error fault ↔ Faulty env pair fault := by
  obtain ⟨before, after, -, -, hsome⟩ := id h
  obtain ⟨value, hvalue⟩ := Option.isSome_iff_exists.1 hsome
  rw [ofEnvironment_of_isChosen h hvalue]
  exact eq_ok_iff_and_eq_error_iff (fun _ hp => ofPair_of_announces hp hvalue)
    (fun _ hfault => ofPair_of_faulty hfault hvalue) (announces_or_faulty hsome)

/-- Only the two variables of the launcher that decides matter. -/
lemma IsChosen.congr (h : IsChosen env pair) (h' : IsChosen other pair)
    (hrank : other pair.1 = env pair.1) (hsize : other pair.2 = env pair.2) :
    ofEnvironment other = ofEnvironment env := by
  obtain ⟨before, after, -, -, hsome⟩ := id h
  obtain ⟨value, hvalue⟩ := Option.isSome_iff_exists.1 hsome
  rw [ofEnvironment_of_isChosen h hvalue, ofEnvironment_of_isChosen h' (hrank.trans hvalue),
    ofPair, ofPair, required, required, hsize]

/-- Each variable belongs to one launcher, as its rank or as its size. -/
lemma not_isOrphan_rank {q : String × String} (hq : q ∈ launchers) : ¬ IsOrphan env q.1 := by
  have hne : ∀ q ∈ launchers, ∀ pair ∈ launchers, pair.2 ≠ q.1 := by decide
  rintro ⟨pair, hpair, heq, -⟩
  exact hne q hq pair hpair heq

lemma not_isOrphan_size {q : String × String} (hq : q ∈ launchers) (hrank : (env q.1).isSome) :
    ¬ IsOrphan env q.2 := by
  have hinj : ∀ q ∈ launchers, ∀ pair ∈ launchers, pair.2 = q.2 → pair = q := by decide
  rintro ⟨pair, hpair, heq, hnone⟩
  rw [← hinj q hq pair hpair heq, hnone] at hrank
  cases hrank

lemma ofEnvironment_congr (h : ∀ name, ¬ IsOrphan env name → other name = env name) :
    ofEnvironment other = ofEnvironment env := by
  have hranks : ∀ q ∈ launchers, other q.1 = env q.1 := fun q hq => h _ (not_isOrphan_rank hq)
  rcases none_or_isChosen env with hnone | ⟨pair, hchosen⟩
  · have hnone' : ∀ q ∈ launchers, other q.1 = none := fun q hq =>
      (hranks q hq).trans (hnone q hq)
    rw [ofEnvironment_of_none hnone, ofEnvironment_of_none hnone']
  · have hpair := hchosen.mem
    obtain ⟨before, after, hpairs, hbefore, hsome⟩ := id hchosen
    have hchosen' : IsChosen other pair := by
      refine ⟨before, after, hpairs, fun q hq => ?_, ?_⟩
      · rw [hranks q (by rw [hpairs]; simp [hq]), hbefore q hq]
      · rwa [hranks pair hpair]
    exact hchosen.congr hchosen' (hranks pair hpair) (h _ (not_isOrphan_size hpair hsome))

lemma rank_lt_size_of_ofEnvironment (h : ofEnvironment env = .ok p) : p.rank < p.size := by
  rcases none_or_isChosen env with hnone | ⟨pair, hchosen⟩
  · cases (ofEnvironment_of_none hnone).symm.trans h
    decide
  · exact ((hchosen.outcomes.1 p).1 h).rank_lt_size

/-- The account of a group begins with one slot for each process, only the first one filled. -/
lemma start_of_lt {α : Type} (h : p.rank < p.size) (own : α) :
    (Gather.Collector.start p.size own).slots.length = p.size.toNat ∧
      (Gather.Collector.start p.size own).missing + 1 = p.size.toNat := by
  have hpos : p.rank.toNat < p.size.toNat := UInt32.lt_iff_toNat_lt.1 h
  simp only [Gather.Collector.start, List.length_cons, List.length_replicate]
  omega

/-- The place of a process. It lies in its group, so the account of the group has a slot for each
process. Without a launcher the process is alone. The first launcher whose rank variable is set
decides: what its variables announce is the result, and a fault in them is the failure, whatever
launchers come after it and whatever other variables hold. Variables for the size alone are never
used. Numbers as they are commonly written are announced. -/
theorem ofEnvironment_spec {α : Type} (env : Environment) (own : α) :
    launchers = [("BINDCHECK_RANK", "BINDCHECK_SIZE"),
      ("OMPI_COMM_WORLD_RANK", "OMPI_COMM_WORLD_SIZE"), ("PMI_RANK", "PMI_SIZE"),
      ("SLURM_PROCID", "SLURM_NTASKS")] ∧
    (∀ p, ofEnvironment env = .ok p → p.rank < p.size ∧
      (Gather.Collector.start p.size own).slots.length = p.size.toNat ∧
      (Gather.Collector.start p.size own).missing + 1 = p.size.toNat) ∧
    ((∀ q ∈ launchers, env q.1 = none) → ofEnvironment env = .ok single) ∧
    (∀ pair, IsChosen env pair →
      (∀ p, ofEnvironment env = .ok p ↔ Announces env pair p) ∧
      (∀ fault, ofEnvironment env = .error fault ↔ Faulty env pair fault) ∧
      (∀ other, IsChosen other pair → other pair.1 = env pair.1 → other pair.2 = env pair.2 →
        ofEnvironment other = ofEnvironment env) ∧
      ∀ rank size rankValue sizeValue, env pair.1 = some rankValue → env pair.2 = some sizeValue →
        IsWritten rankValue rank → IsWritten sizeValue size → rank < size →
        ofEnvironment env = .ok ⟨rank, size⟩) ∧
    ∀ other, (∀ name, ¬ IsOrphan env name → other name = env name) →
      ofEnvironment other = ofEnvironment env := by
  refine ⟨rfl, fun p h => ?_, ofEnvironment_of_none, fun pair hchosen => ?_,
    fun other => ofEnvironment_congr⟩
  · have hlt := rank_lt_size_of_ofEnvironment h
    exact ⟨hlt, start_of_lt hlt own⟩
  -- Whoever decides determines the outcome in both ways; a placement that is announced in plain
  -- numerals is one of them.
  · obtain ⟨hok, herror⟩ := hchosen.outcomes
    refine ⟨hok, herror, fun other => hchosen.congr, ?_⟩
    intro rank size rankValue sizeValue hrank hsize hrank' hsize' hlt
    rw [hok]
    exact ⟨⟨rankValue, hrank, hrank'.isNumber⟩, ⟨sizeValue, hsize, hsize'.isNumber⟩, hlt⟩

/-- A process that was started through PMI, in a batch job that sets the rank alone. -/
def underPmi : Environment := fun name =>
  [("BINDCHECK_SIZE", "none"), ("PMI_RANK", " +3\n"), ("PMI_SIZE", "8"),
    ("SLURM_PROCID", "x")].lookup name

/-- A process that was started through PMI without a size, in a batch job that sets both. -/
def withoutSize : Environment := fun name =>
  [("PMI_RANK", "0"), ("SLURM_PROCID", "3"), ("SLURM_NTASKS", "8")].lookup name

/-- PMI decides over the batch job and over a size that nothing goes with, and it decides as well
where it is incomplete. -/
theorem ofEnvironment_of_pmi :
    IsChosen underPmi ("PMI_RANK", "PMI_SIZE") ∧ IsWritten " +3\n" 3 ∧ IsWritten "8" 8 ∧
      ofEnvironment underPmi = .ok ⟨3, 8⟩ ∧ IsChosen withoutSize ("PMI_RANK", "PMI_SIZE") ∧
      ofEnvironment withoutSize = .error (.missingVariable "PMI_SIZE") := by
  have hpmi (env : Environment) (hbefore : env "BINDCHECK_RANK" = none)
      (hompi : env "OMPI_COMM_WORLD_RANK" = none) (hsome : (env "PMI_RANK").isSome) :
      IsChosen env ("PMI_RANK", "PMI_SIZE") := by
    refine ⟨launchers.take 2, launchers.drop 3, rfl, ?_, hsome⟩
    exact List.forall_mem_cons.2 ⟨hbefore, List.forall_mem_singleton.2 hompi⟩
  obtain ⟨-, -, -, hlaunched, -⟩ := ofEnvironment_spec underPmi ()
  obtain ⟨-, -, -, hbroken, -⟩ := ofEnvironment_spec withoutSize ()
  have hchosen := hpmi underPmi rfl rfl rfl
  have hchosen' := hpmi withoutSize rfl rfl rfl
  have hblank : ∀ c ∈ [' ', '\n'], Text.isBlank c = true :=
    List.forall_mem_cons.2 ⟨rfl, List.forall_mem_singleton.2 rfl⟩
  have hrank : IsWritten " +3\n" 3 := ⟨" ", "+", "\n", rfl, .inr rfl, hblank⟩
  have hsize : IsWritten "8" 8 := isWritten_toString 8
  have hzero : IsWritten "0" 0 := isWritten_toString 0
  refine ⟨hchosen, hrank, hsize, ?_, hchosen', ?_⟩
  · exact (hlaunched _ hchosen).2.2.2 3 8 " +3\n" "8" rfl rfl hrank hsize (by decide)
  · exact ((hbroken _ hchosen').2.1 _).2 (.noSize ⟨"0", rfl, hzero.isNumber⟩ rfl)

end Placement

end JobBinding
