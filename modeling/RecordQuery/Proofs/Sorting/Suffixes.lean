import RecordQuery.Proofs.Sorting.Keys

/-! # Orders named in specs

A text spec that ends in a blank and the name of a direction is split there, if its key is on one
line. The end is found with folded letters, where a long s is an s, but the direction is read with
small letters, where it is none. So a text that names its direction with a long s is refused, and no
other text is refused on its own account.
-/

namespace RecordQuery

/-! ## Letters that fold to a letter -/

namespace Text

variable {c t : Char}

/-- A counterpart is the character itself, or it lies at the distance of a run that lists the
character. -/
theorem counterpart_cases (runs : List CaseRun) (c : Char) :
    counterpart runs c = c ∨ ∃ run ∈ runs, run.lists c.toNat = true ∧
      counterpart runs c = Char.ofNat (c.toNat + run.shift).toNat := by
  induction runs with
  | nil => exact .inl rfl
  | cons run rest ih =>
      rw [counterpart]
      split
      · exact .inl rfl
      · split
        next hlists => exact .inr ⟨run, List.mem_cons_self, hlists, rfl⟩
        next =>
          refine ih.imp_right ?_
          rintro ⟨other, hmem, hother⟩
          exact ⟨other, List.mem_cons_of_mem _ hmem, hother⟩

theorem CaseRun.mem_pairs_of_lists {run : CaseRun} {code : Nat} (h : run.lists code = true) :
    (code, (code + run.shift).toNat) ∈ run.pairs := by
  simp only [lists, Bool.and_eq_true, decide_eq_true_eq, beq_iff_eq] at h
  obtain ⟨⟨hfirst, hlast⟩, hstep⟩ := h
  have hcode : run.first + (code - run.first) / run.step * run.step = code := by
    rw [Nat.div_mul_cancel (Nat.dvd_of_mod_eq_zero hstep)]
    omega
  have hle : (code - run.first) / run.step ≤ (run.last - run.first) / run.step :=
    Nat.div_le_div_right (by omega)
  refine List.mem_map.mpr ⟨(code - run.first) / run.step, List.mem_range.mpr (by omega), ?_⟩
  rw [hcode]

theorem toNat_eq_of_ofNat_eq {n : Nat} (h : Char.ofNat n = t) (ht : t.toNat ≠ 0) :
    n = t.toNat := by
  have htoNat := Char.toNat_ofNat n
  rw [h] at htoNat
  split at htoNat
  · exact htoNat.symm
  · exact absurd htoNat ht

/-- The characters that fold to a character are itself and those that are listed with it. -/
theorem eq_or_mem_foldPairs (ht : t.toNat ≠ 0) (h : fold c = t) :
    c = t ∨ (c.toNat, t.toNat) ∈ foldPairs := by
  rcases counterpart_cases foldRuns c with hsame | ⟨run, hmem, hlists, hcounterpart⟩
  · exact .inl (hsame.symm.trans h)
  · right
    have hcode := toNat_eq_of_ofNat_eq (hcounterpart.symm.trans h) ht
    rw [← hcode]
    exact List.mem_flatMap.mpr ⟨run, hmem, CaseRun.mem_pairs_of_lists hlists⟩

end Text

/-! ## Words -/

/-- The letters in the names of directions. -/
def Direction.letters : List Char := "ascde".toList

/-- The small letter for a letter, with an s for a long s. -/
def plainLetter (c : Char) : Char := if c = 'ſ' then 's' else c.toLower

/-- A character is a small letter already, or the capital of its small letter. -/
theorem toLower_cases (c : Char) : c.toLower = c ∨ c = c.toLower.toUpper := by
  cases hupper : c.isUpper with
  | false => exact .inl (Char.toLower_eq_of_not_isUpper (by simp [hupper]))
  | true =>
      right
      rw [Char.toUpper_toLower_eq_toUpper,
        Char.toUpper_eq_of_not_isLower (Char.not_isLower_of_isUpper hupper)]

/-- A small letter and its capital fold to the small letter, and so does a long s. -/
theorem fold_eq_iff {c t : Char} (ht : t ∈ Direction.letters) :
    Text.fold c = t ↔ plainLetter c = t := by
  have hletters : (Direction.letters.all fun t =>
      decide (t.toNat ≠ 0) && (plainLetter t == t && (Text.fold t == t &&
        Text.fold t.toUpper == t))) = true := by
    decide +kernel
  have hletter := List.all_eq_true.mp hletters t ht
  simp only [Bool.and_eq_true, decide_eq_true_eq, beq_iff_eq] at hletter
  obtain ⟨hne, hplain, hsmall, hcapital⟩ := hletter
  constructor
  · intro h
    rcases Text.eq_or_mem_foldPairs hne h with rfl | hmem
    · exact hplain
    · have hpairs : (Text.foldPairs.all fun pair => Direction.letters.all fun t =>
          pair.2 != t.toNat || plainLetter (Char.ofNat pair.1) == t) = true := by
        decide +kernel
      have hpair := List.all_eq_true.mp (List.all_eq_true.mp hpairs _ hmem) t ht
      rw [Char.ofNat_toNat] at hpair
      simpa using hpair
  · intro h
    rw [plainLetter] at h
    split at h
    next hlong =>
      rw [hlong, ← h]
      decide +kernel
    next =>
      rcases toLower_cases c with hsame | hupper
      · rw [← hsame, h]
        exact hsmall
      · rw [hupper, h]
        exact hcapital

theorem map_fold_eq_iff {cs ts : List Char} (hts : ∀ t ∈ ts, t ∈ Direction.letters) :
    cs.map Text.fold = ts ↔ cs.map plainLetter = ts := by
  induction cs generalizing ts with
  | nil => rfl
  | cons c cs ih =>
      cases ts with
      | nil => simp
      | cons t ts =>
          obtain ⟨ht, hts⟩ := List.forall_mem_cons.mp hts
          rw [List.map_cons, List.map_cons, List.cons_eq_cons, List.cons_eq_cons, fold_eq_iff ht,
            ih hts]

namespace Direction

/-- A word is the name of a direction in letters of either case. -/
def Names (d : Direction) (word : String) : Prop :=
  word.toList.map Char.toLower = d.word.toList

/-- A word is the name of a direction in letters of either case, but for a long s. -/
def NamesWithLongS (d : Direction) (word : String) : Prop :=
  'ſ' ∈ word.toList ∧ word.toList.map plainLetter = d.word.toList

variable {d : Direction} {word : String}

theorem mem_letters_of_mem_word {t : Char} (ht : t ∈ d.word.toList) : t ∈ letters := by
  revert ht
  cases d <;> simp [Direction.word, letters] <;> tauto

/-- A long s has no other small letter, so it is in no name. -/
theorem Names.not_mem (h : d.Names word) : 'ſ' ∉ word.toList := by
  intro hmem
  have hlower := List.mem_map_of_mem (f := Char.toLower) hmem
  rw [h] at hlower
  exact absurd (mem_letters_of_mem_word hlower) (by decide)

theorem map_plainLetter_iff :
    word.toList.map plainLetter = d.word.toList ↔ d.Names word ∨ d.NamesWithLongS word := by
  have hplain (hlong : 'ſ' ∉ word.toList) :
      word.toList.map plainLetter = word.toList.map Char.toLower := by
    apply List.map_congr_left
    intro c hc
    have hne : c ≠ 'ſ' := by
      rintro rfl
      exact hlong hc
    exact if_neg hne
  constructor
  · intro h
    by_cases hlong : 'ſ' ∈ word.toList
    · exact .inr ⟨hlong, h⟩
    · exact .inl ((hplain hlong).symm.trans h)
  · rintro (h | h)
    · exact (hplain h.not_mem).trans h
    · exact h.2

/-- The words at which a text is split. -/
theorem exists_of_isOrderWord_iff :
    isOrderWord word.toList = true ↔ ∃ d : Direction, d.Names word ∨ d.NamesWithLongS word := by
  have hdirection (d : Direction) : word.toList.map Text.fold = d.word.toList ↔
      d.Names word ∨ d.NamesWithLongS word :=
    (map_fold_eq_iff fun t => mem_letters_of_mem_word).trans map_plainLetter_iff
  simp only [isOrderWord, Bool.or_eq_true, decide_eq_true_eq]
  constructor
  · rintro (h | h)
    · exact ⟨.asc, (hdirection .asc).mp h⟩
    · exact ⟨.desc, (hdirection .desc).mp h⟩
  · rintro ⟨d, h⟩
    have hfold := (hdirection d).mpr h
    cases d with
    | asc => exact .inl hfold
    | desc => exact .inr hfold

theorem not_mem_blank_of_isOrderWord (h : isOrderWord word.toList = true) : ' ' ∉ word.toList := by
  intro hmem
  obtain ⟨d, hd⟩ := exists_of_isOrderWord_iff.mp h
  have hplain := List.mem_map_of_mem (f := plainLetter) hmem
  rw [map_plainLetter_iff.mpr hd] at hplain
  exact absurd (mem_letters_of_mem_word hplain) (by decide)

end Direction

/-! ## Orders -/

open Direction

/-- A name is read as the direction that it names without a long s, and no other name is read. -/
theorem Order.named_cases (name : String) :
    (∃ d : Direction, d.Names name ∧ Order.named name = .ok d.order) ∨
      (∀ d : Direction, ¬ d.Names name) ∧ Order.named name = .error (.invalidSortOrder name) := by
  by_cases hasc : Direction.asc.Names name
  · exact .inl ⟨.asc, hasc, if_pos hasc⟩
  · by_cases hdesc : Direction.desc.Names name
    · exact .inl ⟨.desc, hdesc, (if_neg hasc).trans (if_pos hdesc)⟩
    · refine .inr ⟨fun d => ?_, (if_neg hasc).trans (if_neg hdesc)⟩
      cases d with
      | asc => exact hasc
      | desc => exact hdesc

/-- A name names one direction. -/
theorem Direction.Names.unique {d d' : Direction} {name : String} (h : d.Names name)
    (h' : d'.Names name) : d = d' := by
  have hword : d.word.toList = d'.word.toList := h.symm.trans h'
  revert hword
  cases d <;> cases d' <;> decide

/-- A name with a long s in it is refused. -/
theorem Direction.NamesWithLongS.named_eq {d : Direction} {name : String}
    (h : d.NamesWithLongS name) : Order.named name = .error (.invalidSortOrder name) := by
  rcases Order.named_cases name with ⟨d', h', -⟩ | ⟨-, hnamed⟩
  · exact absurd h.1 h'.not_mem
  · exact hnamed

theorem Order.named_of_names {d : Direction} {name : String} (h : d.Names name) :
    Order.named name = .ok d.order := by
  rcases Order.named_cases name with ⟨d', h', hnamed⟩ | ⟨hnone, -⟩
  · rw [h.unique h', hnamed]
  · exact absurd h (hnone d)

/-- The order that is asked for, ascending if none is. -/
inductive SortOrder.Gives : SortOrder → Order → Prop where
  | unspecified : Gives .unspecified .asc
  | index (i : Int) : Gives (.index i) .asc
  | name {d : Direction} {word : String} (h : d.Names word) : Gives (.name word) d.order
  | order (o : Order) : Gives (.order o) o

namespace SortOrder

theorem Gives.resolve_eq {order : SortOrder} {o : Order} (h : order.Gives o) :
    order.resolve = .ok o := by
  cases h with
  | unspecified | index | order => rfl
  | name h => exact Order.named_of_names h

/-- Only a name that names no direction is refused. -/
theorem resolve_eq_error_iff {order : SortOrder} {e : QueryError} :
    order.resolve = .error e ↔ ∃ word, order = .name word ∧ (∀ d : Direction, ¬ d.Names word) ∧
      e = .invalidSortOrder word := by
  cases order with
  | unspecified | index i | order o => simp [resolve]
  | name word =>
      rw [resolve]
      rcases Order.named_cases word with ⟨d, hd, hnamed⟩ | ⟨hnone, hnamed⟩
      · rw [hnamed]
        constructor
        · intro h
          cases h
        · rintro ⟨other, hother, hnone, -⟩
          obtain rfl := SortOrder.name.inj hother
          exact absurd hd (hnone d)
      · rw [hnamed]
        constructor
        · intro h
          exact ⟨word, rfl, hnone, (Except.error.inj h).symm⟩
        · rintro ⟨other, hother, -, rfl⟩
          rw [SortOrder.name.inj hother]

end SortOrder

/-! ## Texts -/

/-- A text is a key on one line, a blank and a word. -/
structure EndsIn (text key word : String) : Prop where
  text_eq : text = key ++ " " ++ word
  line : '\n' ∉ key.toList

theorem EndsIn.toList_eq {text key word : String} (h : EndsIn text key word) :
    text.toList = key.toList ++ ' ' :: word.toList := by
  rw [h.text_eq]
  simp

/-- A text is split at its last blank, and only in front of the name of an order. -/
theorem exists_of_splitOrderSuffix? {cs key word : List Char}
    (h : splitOrderSuffix? cs = some (key, word)) :
    cs = key ++ ' ' :: word ∧ isOrderWord word = true ∧ '\n' ∉ key := by
  have hparts := List.takeWhile_append_dropWhile (p := (· ≠ ' ')) (l := cs.reverse)
  have hhead := List.head?_dropWhile_not (· ≠ ' ') cs.reverse
  rw [splitOrderSuffix?] at h
  split at h
  next => cases h
  next blank before hrest =>
    rw [hrest] at hparts hhead
    obtain rfl : blank = ' ' := by simpa using hhead
    split at h
    next hword =>
      simp only [Bool.and_eq_true, Bool.not_eq_true', List.contains_eq_mem,
        decide_eq_false_iff_not] at hword
      cases h
      refine ⟨?_, hword.1, by simpa using hword.2⟩
      have hreverse := congrArg List.reverse hparts.symm
      rwa [List.reverse_reverse, List.reverse_append, List.reverse_cons, List.append_assoc,
        List.singleton_append] at hreverse
    next => cases h

theorem splitOrderSuffix?_eq_some_iff {text key word : String} :
    splitOrderSuffix? text.toList = some (key.toList, word.toList) ↔
      EndsIn text key word ∧ isOrderWord word.toList = true := by
  constructor
  · intro h
    obtain ⟨htext, hword, hline⟩ := exists_of_splitOrderSuffix? h
    refine ⟨⟨?_, hline⟩, hword⟩
    rw [← String.toList_inj, htext]
    simp
  · rintro ⟨hends, hword⟩
    rw [hends.toList_eq]
    exact splitOrderSuffix?_append hword (not_mem_blank_of_isOrderWord hword) hends.line

namespace Comparator

variable {text key word : String} {d : Direction} {order : SortOrder}

/-- At the name of an order the text is split, and the order that is asked for does not count. -/
theorem ofSpec_of_endsIn (h : EndsIn text key word) (hword : isOrderWord word.toList = true) :
    ofSpec (.text text) order = (Order.named word).map fun o => ⟨.field key, o⟩ := by
  rw [ofSpec]
  simp only [splitOrderSuffix?_eq_some_iff.mpr ⟨h, hword⟩, String.ofList_toList]
  rfl

theorem ofSpec_of_names (h : EndsIn text key word) (hd : d.Names word) :
    ofSpec (.text text) order = .ok ⟨.field key, d.order⟩ := by
  rw [ofSpec_of_endsIn h (exists_of_isOrderWord_iff.mpr ⟨d, .inl hd⟩), Order.named_of_names hd]
  rfl

theorem ofSpec_of_namesWithLongS (h : EndsIn text key word) (hd : d.NamesWithLongS word) :
    ofSpec (.text text) order = .error (.invalidSortOrder word) := by
  rw [ofSpec_of_endsIn h (exists_of_isOrderWord_iff.mpr ⟨d, .inr hd⟩), hd.named_eq]
  rfl

/-- Elsewhere the text is a key. -/
theorem ofSpec_of_not_endsIn
    (h : ∀ key word, EndsIn text key word → ¬ isOrderWord word.toList = true) :
    ofSpec (.text text) order = order.resolve.map fun o => ⟨.field text, o⟩ := by
  have hnone : splitOrderSuffix? text.toList = none := by
    rw [Option.eq_none_iff_forall_ne_some]
    rintro ⟨key, word⟩ hsplit
    have hsome : splitOrderSuffix? text.toList =
        some ((String.ofList key).toList, (String.ofList word).toList) := by
      simpa using hsplit
    obtain ⟨hends, hword⟩ := splitOrderSuffix?_eq_some_iff.mp hsome
    exact h _ _ hends hword
  rw [ofSpec]
  simp only [hnone]
  rfl

/-- A text with no order of its own has the one that is asked for. -/
theorem ofSpec_eq_ok (h : ∀ key word, EndsIn text key word → ¬ isOrderWord word.toList = true)
    {o : Order} (ho : order.Gives o) : ofSpec (.text text) order = .ok ⟨.field text, o⟩ := by
  rw [ofSpec_of_not_endsIn h, ho.resolve_eq]
  rfl

/-- With no order asked for, a text is refused only if it names a direction with a long s. -/
theorem exists_ofSpec_text_iff :
    (∃ c, ofSpec (.text text) .unspecified = .ok c) ↔
      ∀ key word d, EndsIn text key word → ¬ Direction.NamesWithLongS d word := by
  constructor
  · rintro ⟨c, hc⟩ key word d hends hd
    rw [ofSpec_of_namesWithLongS hends hd] at hc
    cases hc
  · intro h
    by_cases hends : ∃ key word, EndsIn text key word ∧ isOrderWord word.toList = true
    · obtain ⟨key, word, hends, hword⟩ := hends
      obtain ⟨d, hd⟩ := exists_of_isOrderWord_iff.mp hword
      exact ⟨_, ofSpec_of_names hends (hd.resolve_right (h key word d hends))⟩
    · refine ⟨_, ofSpec_eq_ok (fun key word hkey hword => ?_) .unspecified⟩
      exact hends ⟨key, word, hkey, hword⟩

/-- Texts have comparators, in the order in which they stand, unless one of them names a direction
with a long s. -/
theorem exists_ofSpecs_text_iff {texts : List String} :
    (∃ cs, ofSpecs (texts.map .text) = .ok cs) ↔
      ∀ text ∈ texts, ∀ key word d, EndsIn text key word → ¬ Direction.NamesWithLongS d word := by
  simp only [← exists_ofSpec_text_iff, ofSpecs, mapM_eq_ok_iff, List.forall₂_map_left_iff]
  induction texts with
  | nil => simp
  | cons text texts ih =>
      rw [List.forall_mem_cons, ← ih]
      simp only [List.forall₂_cons_left_iff]
      tauto

/-- A text that ends in a blank and the name of a direction, with its key on one line, is a
comparator of that key and direction, whatever order is asked for. With a long s in the name it is
refused. Every other text is a key with the order that is asked for, and fails only on a name that
names no direction. So without orders asked for, a list of texts fails only on a long s. -/
theorem ofSpec_text (text : String) (order : SortOrder) :
    (∀ key word d, EndsIn text key word → Direction.Names d word →
      ofSpec (.text text) order = .ok ⟨.field key, d.order⟩) ∧
    (∀ key word d, EndsIn text key word → Direction.NamesWithLongS d word →
      ofSpec (.text text) order = .error (.invalidSortOrder word)) ∧
    ((∀ key word d, EndsIn text key word →
        ¬ Direction.Names d word ∧ ¬ Direction.NamesWithLongS d word) →
      (∀ o, order.Gives o → ofSpec (.text text) order = .ok ⟨.field text, o⟩) ∧
      ∀ e, ofSpec (.text text) order = .error e ↔ ∃ word, order = .name word ∧
        (∀ d : Direction, ¬ d.Names word) ∧ e = .invalidSortOrder word) ∧
    ∀ texts : List String, (∃ cs, ofSpecs (texts.map .text) = .ok cs) ↔
      ∀ text ∈ texts, ∀ key word d, EndsIn text key word → ¬ Direction.NamesWithLongS d word := by
  refine ⟨fun key word d => ofSpec_of_names, fun key word d => ofSpec_of_namesWithLongS, ?_,
    fun texts => exists_ofSpecs_text_iff⟩
  intro h
  have hnone (key word : String) (hends : EndsIn text key word) :
      ¬ isOrderWord word.toList = true := by
    intro hword
    obtain ⟨d, hd⟩ := exists_of_isOrderWord_iff.mp hword
    exact hd.elim (h key word d hends).1 (h key word d hends).2
  refine ⟨fun o => ofSpec_eq_ok hnone, fun e => ?_⟩
  rw [ofSpec_of_not_endsIn hnone, map_eq_error_iff]
  exact SortOrder.resolve_eq_error_iff

/-- A key that ends in the name of an order itself, with a direction in capitals, and a key with a
line break. -/
theorem ofSpec_text_inner :
    EndsIn "n asc DESC" "n asc" "DESC" ∧ Direction.desc.Names "DESC" ∧
      ofSpec (.text "n asc DESC") (.name "sideways") = .ok ⟨.field "n asc", .desc⟩ ∧
      ofSpec (.text "n\n desc") (.name "sideways") = .error (.invalidSortOrder "sideways") := by
  have hends : EndsIn "n asc DESC" "n asc" "DESC" := ⟨rfl, by decide⟩
  have hnames : Direction.desc.Names "DESC" := by
    rw [Direction.Names]
    decide
  have hsplit : splitOrderSuffix? "n\n desc".toList = none := by decide +kernel
  have hnone (key word : String) (d : Direction) (h : EndsIn "n\n desc" key word) :
      ¬(d.Names word ∨ d.NamesWithLongS word) := by
    intro hd
    have hsome := splitOrderSuffix?_eq_some_iff.mpr ⟨h, exists_of_isOrderWord_iff.mpr ⟨d, hd⟩⟩
    rw [hsplit] at hsome
    cases hsome
  have hsideways (d : Direction) : ¬ d.Names "sideways" := by
    rw [Direction.Names]
    cases d <;> decide
  refine ⟨hends, hnames, (ofSpec_text _ _).1 _ _ _ hends hnames, ?_⟩
  have hwhole := (ofSpec_text "n\n desc" (.name "sideways")).2.2.1
    fun key word d h => not_or.mp (hnone key word d h)
  exact (hwhole.2 _).mpr ⟨_, rfl, hsideways, rfl⟩

/-- A text without a direction in small or capital letters is refused, and one that ends in a
direction is not split. -/
theorem ofSpec_text_differs :
    (∀ d : Direction, ¬ d.Names "aſc") ∧
      ofSpec (.text "x aſc") .unspecified = .error (.invalidSortOrder "aſc") ∧
      ofSpecs [.text "x aſc"] = .error (.invalidSortOrder "aſc") ∧
      "n\n desc" = "n\n" ++ " " ++ "desc" ∧
      ofSpec (.text "n\n desc") .unspecified = .ok ⟨.field "n\n desc", .asc⟩ := by
  have hlong : Direction.asc.NamesWithLongS "aſc" := by
    rw [Direction.NamesWithLongS]
    decide
  have hends : EndsIn "x aſc" "x" "aſc" := ⟨rfl, by decide⟩
  have hsplit : splitOrderSuffix? "n\n desc".toList = none := by decide +kernel
  have hrefused : ofSpec (.text "x aſc") .unspecified = .error (.invalidSortOrder "aſc") :=
    ofSpec_of_namesWithLongS hends hlong
  refine ⟨fun d hd => hd.not_mem hlong.1, hrefused, ?_, rfl, ?_⟩
  · rw [ofSpecs, List.mapM_cons, hrefused]
    rfl
  · rw [ofSpec]
    simp only [hsplit]
    rfl

end Comparator

end RecordQuery
