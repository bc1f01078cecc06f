import SessionDispatch.Proofs.Toml.Values
import SessionDispatch.Toml.Document

/-!
# Documents are read back

The blocks of a document are read back one after the other, and each of them opens a table of its
own. Keys are written without quotes, so their parts must need none.
-/

namespace SessionDispatch

namespace Scanner

variable {α : Type} {p : Scanner α} {s t r : List Char} {a : α} {as : List α}

theorem many_of_none (h : p s = none) : many p s = some ([], s) := by
  rw [many, h]

theorem many_of_some (h : p s = some (a, t)) (hlt : t.length < s.length)
    (hr : many p t = some (as, r)) :
    many p s = some (a :: as, r) := by
  rw [many, h]
  dsimp only
  rw [if_pos hlt, hr, Option.map_some]

end Scanner

namespace Toml

open Scanner

variable {part : String} {path : List String} {c : Char} {s rest : List Char}

/-! ## Keys -/

def IsBare (part : String) : Prop := part ≠ "" ∧ ∀ c ∈ part.toList, isBareKey c = true

instance : DecidablePred IsBare := fun _ => inferInstanceAs (Decidable (_ ∧ _))

def StartsBare (s : List Char) : Prop := ∃ c ∈ s.head?, isBareKey c = true

theorem IsBare.startsBare (h : IsBare part) (rest : List Char) :
    StartsBare (part.toList ++ rest) := by
  obtain ⟨hne, hbare⟩ := h
  cases hs : part.toList with
  | nil => exact absurd (String.toList_inj.mp hs) hne
  | cons c t => exact ⟨c, rfl, hbare c (hs ▸ List.mem_cons_self)⟩

theorem StartsBare.head?_ne (h : StartsBare s) (hc : isBareKey c = false) : s.head? ≠ some c := by
  obtain ⟨d, hd, hbare⟩ := h
  intro hs
  obtain rfl := Option.some.inj ((Option.mem_def.mp hd).symm.trans hs)
  rw [hc] at hbare
  cases hbare

theorem not_startsBare_cons (hc : isBareKey c = false) (s : List Char) : ¬StartsBare (c :: s) :=
  fun h => h.head?_ne hc rfl

theorem not_isBareKey_of_isBlank (h : isBlank c = true) : isBareKey c = false := by
  obtain rfl | rfl := of_decide_eq_true h <;> decide

theorem StartsBare.dropWhile_isBlank (h : StartsBare s) : s.dropWhile isBlank = s := by
  cases s with
  | nil => rfl
  | cons c t =>
      refine List.dropWhile_cons_of_neg fun hc => ?_
      exact h.head?_ne (not_isBareKey_of_isBlank hc) rfl

theorem blanks_eq (s : List Char) : blanks s = some ((), s.dropWhile isBlank) := rfl

/-- The parts of a key after the first, each after a dot. -/
def moreParts (path : List String) : List Char := path.flatMap fun part => '.' :: part.toList

section Parts

variable (hrest : ¬StartsBare rest)
include hrest

/-- After a part of a key stands a dot or what follows the key. -/
theorem not_startsBare_moreParts (path : List String) : ¬StartsBare (moreParts path ++ rest) := by
  cases path with
  | nil => exact hrest
  | cons part path => exact not_startsBare_cons (by decide) _

theorem keyPart_append (hp : IsBare part) : keyPart (part.toList ++ rest) = some (part, rest) := by
  have hstart := hp.startsBare rest
  have hnone : singleLine (part.toList ++ rest) = none :=
    singleLine_of_head? (hstart.head?_ne (by decide)) (hstart.head?_ne (by decide))
  have hrun : run1 isBareKey (part.toList ++ rest) = some (part.toList, rest) := by
    refine (bind_of_some (run_append hp.2 fun c hc hbare => hrest ⟨c, hc, hbare⟩)).trans ?_
    rw [if_neg]
    · rfl
    · intro hempty
      exact hp.1 (String.toList_inj.mp (List.isEmpty_iff.mp hempty))
  refine (orElse_of_none hnone).trans ((bind_of_some hrun).trans ?_)
  rw [String.ofList_toList]
  rfl

/-- A part of a key with the blanks around it. -/
theorem keyPart_between (hp : IsBare part) :
    (do blanks; let part ← keyPart; blanks; return part : Scanner String) (part.toList ++ rest) =
      some (part, rest.dropWhile isBlank) := by
  rw [bind_of_some (blanks_eq _), (hp.startsBare rest).dropWhile_isBlank,
    bind_of_some (keyPart_append hrest hp), bind_of_some (blanks_eq rest)]
  rfl

/-- The parts of a key after the first are read up to what follows the key. -/
theorem many_moreParts (hp : ∀ part ∈ path, IsBare part)
    (hdot : (rest.dropWhile isBlank).head? ≠ some '.') :
    many (do char '.'; blanks; let part ← keyPart; blanks; return part)
      ((moreParts path ++ rest).dropWhile isBlank) = some (path, rest.dropWhile isBlank) := by
  induction path with
  | nil => exact many_of_none (bind_of_none (char_of_head?_ne hdot))
  | cons part path ih =>
      obtain ⟨hpart, hp⟩ := List.forall_mem_cons.mp hp
      have hnext := keyPart_between (not_startsBare_moreParts hrest path) hpart
      rw [moreParts, List.flatMap_cons, List.append_assoc, List.cons_append,
        List.dropWhile_cons_of_neg (by decide)]
      refine many_of_some ((bind_of_some (char_cons ..)).trans hnext) ?_ (ih hp)
      refine Nat.lt_succ_of_le ((length_dropWhile_le _ _).trans ?_)
      exact (List.suffix_append _ _).length_le

end Parts

theorem toList_intercalate_cons (part : String) (path : List String) :
    (".".intercalate (part :: path)).toList = part.toList ++ moreParts path := by
  rw [String.toList_intercalate, moreParts]
  induction path generalizing part with
  | nil => rw [List.map_singleton, List.intercalate_singleton, List.flatMap_nil, List.append_nil]
  | cons next path ih =>
      have hnext := ih next
      rw [List.map_cons] at hnext
      rw [List.map_cons, List.map_cons, List.intercalate_cons_cons, List.flatMap_cons, hnext,
        List.append_assoc]
      rfl

/-- A path that is written and read as a key. -/
structure IsKey (path : List String) (k : Key) : Prop where
  parts : keyOfParts? path = some k
  bare : ∀ part ∈ path, IsBare part
  short : path.length < nestingLimit

theorem IsKey.startsBare {k : Key} (hk : IsKey path k) (rest : List Char) :
    StartsBare ((".".intercalate path).toList ++ rest) := by
  cases path with
  | nil => cases hk.parts
  | cons part path =>
      rw [toList_intercalate_cons, List.append_assoc]
      exact (hk.bare part List.mem_cons_self).startsBare _

theorem key_append {k : Key} (hk : IsKey path k) (hrest : ¬StartsBare rest)
    (hdot : (rest.dropWhile isBlank).head? ≠ some '.') :
    key ((".".intercalate path).toList ++ rest) = some (k, rest.dropWhile isBlank) := by
  cases path with
  | nil => cases hk.parts
  | cons part path =>
      obtain ⟨hpart, hpath⟩ := List.forall_mem_cons.mp hk.bare
      rw [toList_intercalate_cons, List.append_assoc]
      have hfirst := keyPart_between (not_startsBare_moreParts hrest path) hpart
      have hmore := many_moreParts hrest hpath hdot
      unfold key separated
      rw [bind_of_some ((bind_of_some hfirst).trans (bind_of_some hmore)), if_pos hk.short,
        hk.parts]
      rfl

/-! ## Lines -/

/-- Characters that are read as one statement, whatever follows, and that do not start with a blank
or with a byte order mark. -/
structure IsLine (line : List Char) (statement : Statement) : Prop where
  reads : ∀ rest, Toml.statement (line ++ rest) = some (statement, rest)
  starts : ∃ c t, line = c :: t ∧ isBlank c = false ∧ c ≠ '\ufeff'

theorem isLine_blank : IsLine ['\n'] .blank :=
  ⟨fun _ => rfl, '\n', [], rfl, by decide, by decide⟩

theorem isLine_header {k : Key} (hk : IsKey path k) : IsLine (headerChars path) (.table k) := by
  refine ⟨fun rest => ?_, '[', _, rfl, by decide, by decide⟩
  have hread : key ((".".intercalate path).toList ++ ([']', '\n'] ++ rest)) =
      some (k, [']', '\n'] ++ rest) :=
    key_append hk (not_startsBare_cons (by decide) _) fun h => absurd (Option.some.inj h)
      (by decide)
  have hbracket : char '[' ((".".intercalate path).toList ++ ([']', '\n'] ++ rest)) = none :=
    char_of_head?_ne ((hk.startsBare _).head?_ne (by decide))
  rw [headerChars, List.cons_append, List.append_assoc]
  refine (orElse_of_none rfl).trans ((orElse_of_none rfl).trans ?_)
  refine (orElse_of_none
    (bind_of_none ((bind_of_some (char_cons ..)).trans (bind_of_none hbracket)))).trans ?_
  refine orElse_of_some ((bind_of_some (char_cons ..)).trans ((bind_of_some hread).trans ?_))
  rfl

/-- No value starts with a blank. -/
theorem dropWhile_scalarChars (v : Scalar) (rest : List Char) :
    (scalarChars v ++ rest).dropWhile isBlank = scalarChars v ++ rest := by
  cases v with
  | bool b => cases b <;> rfl
  | int i =>
      cases i with
      | ofNat n =>
          change (Numeral.decimal n ++ rest).dropWhile isBlank = Numeral.decimal n ++ rest
          cases hd : Numeral.decimal n with
          | nil => exact absurd hd (decimal_ne_nil n)
          | cons d ds =>
              have hdigit : Numeral.isDigit 10 d = true :=
                Numeral.isDigit_of_mem_decimal (hd ▸ List.mem_cons_self)
              refine List.dropWhile_cons_of_neg fun hb => ?_
              obtain rfl | rfl := of_decide_eq_true hb <;> exact absurd hdigit (by decide)
      | negSucc n => rfl
  | text s =>
      change (quotedChars s.toList ++ rest).dropWhile isBlank = quotedChars s.toList ++ rest
      unfold quotedChars
      cases quotingOf s.toList <;> rfl

/-- What starts with a key is no comment, no empty line and no header. -/
theorem statement_of_startsBare (h : StartsBare s) :
    statement s = (do
      let k ← key
      char '='
      blanks
      let v ← value (nestingLimit - 1)
      trailing
      return .pair k v : Scanner Statement) s := by
  have hbracket : char '[' s = none := char_of_head?_ne (h.head?_ne (by decide))
  have hcomment : comment s = none := bind_of_none (char_of_head?_ne (h.head?_ne (by decide)))
  have hnewline : newline s = none := by
    rw [newline, newline?_of_head? (h.head?_ne (by decide)) (h.head?_ne (by decide))]
    rfl
  refine (orElse_of_none (bind_of_none hcomment)).trans
    ((orElse_of_none (bind_of_none hnewline)).trans ?_)
  exact (orElse_of_none (bind_of_none (bind_of_none hbracket))).trans
    (orElse_of_none (bind_of_none hbracket))

/-- A pair is read as such, however deep its value may nest. -/
theorem pair_append {name : String} {v : Scalar} (hn : IsBare name) (hv : Fits v) (depth : Nat)
    (rest : List Char) :
    (do
      let k ← key
      char '='
      blanks
      let v ← value depth
      trailing
      return .pair k v : Scanner Statement) (pairChars (name, v) ++ rest) =
      some (.pair ⟨[], name⟩ (.scalar v), rest) := by
  have hkey : IsKey [name] ⟨[], name⟩ := ⟨rfl, by simpa using hn, of_decide_eq_true rfl⟩
  have hread : key
      ((".".intercalate [name]).toList ++ (' ' :: '=' :: ' ' :: (scalarChars v ++ '\n' :: rest))) =
      some (⟨[], name⟩, '=' :: ' ' :: (scalarChars v ++ '\n' :: rest)) :=
    key_append hkey (not_startsBare_cons (by decide) _) fun h => absurd (Option.some.inj h)
      (by decide)
  rw [String.intercalate_singleton] at hread
  have hblanks : blanks (' ' :: (scalarChars v ++ '\n' :: rest)) =
      some ((), scalarChars v ++ '\n' :: rest) := by
    rw [blanks_eq, List.dropWhile_cons_of_pos (by decide), dropWhile_scalarChars]
  have hchars : pairChars (name, v) ++ rest =
      name.toList ++ (' ' :: '=' :: ' ' :: (scalarChars v ++ '\n' :: rest)) := by
    simp [pairChars]
  rw [hchars, bind_of_some hread, bind_of_some (char_cons ..), bind_of_some hblanks,
    bind_of_some (value_scalarChars hv depth rest)]
  rfl

theorem pairChars_startsBare {name : String} {v : Scalar} (hn : IsBare name) (rest : List Char) :
    StartsBare (pairChars (name, v) ++ rest) := by
  unfold pairChars
  rw [List.append_assoc, List.append_assoc, List.append_assoc]
  exact hn.startsBare _

theorem isLine_pair {name : String} {v : Scalar} (hn : IsBare name) (hv : Fits v) :
    IsLine (pairChars (name, v)) (.pair ⟨[], name⟩ (.scalar v)) := by
  constructor
  · intro rest
    exact (statement_of_startsBare (pairChars_startsBare hn rest)).trans (pair_append hn hv _ rest)
  · obtain ⟨c, hc, hbare⟩ := pairChars_startsBare (v := v) hn []
    rw [List.append_nil] at hc
    obtain ⟨t, ht⟩ := List.head?_eq_some_iff.mp hc
    refine ⟨c, t, ht, ?_, ?_⟩
    · exact Bool.eq_false_iff.mpr fun hb => absurd hbare
        (by rw [not_isBareKey_of_isBlank hb]; decide)
    · rintro rfl
      exact absurd hbare (by decide)

/-! ## Documents -/

section Lines

variable {lines : List (List Char × Statement)} (hl : ∀ line ∈ lines, IsLine line.1 line.2)
include hl

theorem dropWhile_lines : (lines.flatMap Prod.fst).dropWhile isBlank = lines.flatMap Prod.fst := by
  cases lines with
  | nil => rfl
  | cons line lines =>
      obtain ⟨c, t, ht, hblank, -⟩ := (hl line List.mem_cons_self).starts
      rw [List.flatMap_cons, ht]
      exact List.dropWhile_cons_of_neg (by simp [hblank])

theorem many_lines :
    many (do let s ← statement; blanks; return s) (lines.flatMap Prod.fst) =
      some (lines.map Prod.snd, []) := by
  induction lines with
  | nil => exact many_of_none rfl
  | cons line lines ih =>
      obtain ⟨hline, hl⟩ := List.forall_mem_cons.mp hl
      rw [List.flatMap_cons, List.map_cons]
      refine many_of_some (t := lines.flatMap Prod.fst) ?_ ?_ (ih hl)
      · rw [bind_of_some (hline.reads _), bind_of_some (blanks_eq _), dropWhile_lines hl]
        rfl
      · obtain ⟨c, t, ht, -⟩ := hline.starts
        rw [ht, List.length_append, List.length_cons]
        omega

/-- A document is read line by line. -/
theorem statements_lines : statements (lines.flatMap Prod.fst) = some (lines.map Prod.snd, []) := by
  have hmark :
      maybe (char '\ufeff') (lines.flatMap Prod.fst) = some ((), lines.flatMap Prod.fst) := by
    refine orElse_of_none (bind_of_none (char_of_head?_ne ?_))
    cases lines with
    | nil => exact nofun
    | cons line lines =>
        obtain ⟨c, t, ht, -, hne⟩ := (hl line List.mem_cons_self).starts
        rw [List.flatMap_cons, ht]
        exact fun h => hne (Option.some.inj h)
  unfold statements
  rw [bind_of_some hmark, bind_of_some (blanks_eq _), dropWhile_lines hl,
    bind_of_some (many_lines hl)]
  rfl

end Lines

namespace Block

def key (b : Block) : Key := ⟨b.path.dropLast, b.path.getLast?.getD ""⟩

def entries (b : Block) : List (Key × Tree) :=
  b.pairs.map fun pair => (⟨[], pair.1⟩, .scalar pair.2)

def lines (b : Block) : List (List Char × Statement) :=
  (headerChars b.path, .table b.key) :: b.pairs.map fun pair =>
    (pairChars pair, .pair ⟨[], pair.1⟩ (.scalar pair.2))

/-- No name in a block needs quotes, and every number fits. -/
structure Writable (b : Block) : Prop where
  path : IsKey b.path b.key
  pairs : ∀ pair ∈ b.pairs, IsBare pair.1 ∧ Fits pair.2

theorem flatMap_lines (b : Block) : b.lines.flatMap Prod.fst = blockChars b := by
  rw [lines, List.flatMap_cons, List.flatMap_map]
  rfl

theorem Writable.isLine {b : Block} (hb : b.Writable) : ∀ line ∈ b.lines, IsLine line.1 line.2 := by
  refine List.forall_mem_cons.mpr ⟨isLine_header hb.path, fun line hline => ?_⟩
  obtain ⟨pair, hpair, rfl⟩ := List.mem_map.mp hline
  obtain ⟨hbare, hfits⟩ := hb.pairs pair hpair
  exact isLine_pair hbare hfits

end Block

/-- The lines of a document: those of its blocks, and an empty one between two blocks. -/
def documentLines (blocks : List Block) : List (List Char × Statement) :=
  [(['\n'], Statement.blank)].intercalate (blocks.map Block.lines)

theorem documentLines_cons_cons (b b' : Block) (blocks : List Block) :
    documentLines (b :: b' :: blocks) =
      b.lines ++ (['\n'], .blank) :: documentLines (b' :: blocks) := by
  rw [documentLines, List.map_cons, List.map_cons, List.intercalate_cons_cons, List.append_assoc]
  rfl

theorem documentLines_singleton (b : Block) : documentLines [b] = b.lines :=
  List.intercalate_singleton

theorem isLine_documentLines {blocks : List Block} (hb : ∀ b ∈ blocks, b.Writable) :
    ∀ line ∈ documentLines blocks, IsLine line.1 line.2 := by
  induction blocks with
  | nil => exact nofun
  | cons b blocks ih =>
      obtain ⟨hwritable, hblocks⟩ := List.forall_mem_cons.mp hb
      cases blocks with
      | nil => exact documentLines_singleton b ▸ hwritable.isLine
      | cons b' blocks =>
          rw [documentLines_cons_cons]
          intro line hline
          obtain hline | hline := List.mem_append.mp hline
          · exact hwritable.isLine line hline
          · obtain rfl | hline := List.mem_cons.mp hline
            · exact isLine_blank
            · exact ih hblocks line hline

theorem toList_render (blocks : List Block) :
    (render blocks).toList = (documentLines blocks).flatMap Prod.fst := by
  rw [render, String.toList_ofList]
  induction blocks with
  | nil => rfl
  | cons b blocks ih =>
      cases blocks with
      | nil =>
          rw [documentLines_singleton, Block.flatMap_lines, List.map_singleton,
            List.intercalate_singleton]
      | cons b' blocks =>
          rw [documentLines_cons_cons, List.flatMap_append, Block.flatMap_lines, List.flatMap_cons,
            ← ih, List.map_cons, List.map_cons, List.intercalate_cons_cons, List.append_assoc]

/-- The pairs of a block end where a header or the end of the document follows. -/
theorem pairsBefore_pairs (pairs : List (String × Scalar)) (ss : List Statement) :
    pairsBefore ((pairs.map fun pair => .pair ⟨[], pair.1⟩ (.scalar pair.2)) ++ ss) =
      ((pairs.map fun pair => (⟨[], pair.1⟩, .scalar pair.2)) ++ (pairsBefore ss).1,
        (pairsBefore ss).2) := by
  induction pairs with
  | nil => rfl
  | cons pair pairs ih =>
      rw [List.map_cons, List.cons_append, pairsBefore, ih]
      rfl

theorem pairsBefore_documentLines (blocks : List Block) :
    pairsBefore ((documentLines blocks).map Prod.snd) =
      ([], (documentLines blocks).map Prod.snd) := by
  cases blocks with
  | nil => rfl
  | cons b blocks =>
      cases blocks with
      | nil => rfl
      | cons b' blocks =>
          rw [documentLines_cons_cons]
          rfl

theorem addSections_block (es : Entries) (b : Block) (ss : List Statement) :
    addSections es (b.lines.map Prod.snd ++ ss) =
      (es.addTable b.key (b.entries ++ (pairsBefore ss).1)).bind fun es => addSections es
        (pairsBefore ss).2 := by
  have hbody := pairsBefore_pairs b.pairs ss
  rw [Block.lines, List.map_cons, List.map_map, List.cons_append, addSections]
  simp only [Function.comp_def]
  rw [hbody]
  rfl

/-- Each block opens its table. -/
theorem addSections_documentLines (es : Entries) (blocks : List Block) :
    addSections es ((documentLines blocks).map Prod.snd) =
      blocks.foldlM (fun es b => es.addTable b.key b.entries) es := by
  induction blocks generalizing es with
  | nil =>
      rw [documentLines, List.map_nil, List.intercalate_nil, List.map_nil, addSections]
      rfl
  | cons b blocks ih =>
      rw [List.foldlM_cons]
      cases blocks with
      | nil =>
          have hblock := addSections_block es b []
          rw [documentLines_singleton, ← List.append_nil (b.lines.map Prod.snd), hblock,
            pairsBefore, List.append_nil]
          congr 1
          funext es
          rw [addSections]
          rfl
      | cons b' blocks =>
          have hrest := pairsBefore_documentLines (b' :: blocks)
          rw [documentLines_cons_cons, List.map_append, addSections_block, List.map_cons,
            pairsBefore, hrest, List.append_nil]
          congr 1
          funext es
          exact ih es

/-- A document that was written is read as its blocks. -/
theorem parse?_render {blocks : List Block} (hb : ∀ b ∈ blocks, b.Writable) :
    parse? (render blocks) =
      (blocks.foldlM (fun (es : Entries) b => es.addTable b.key b.entries) []).map
        Entries.tree := by
  have hread := statements_lines (isLine_documentLines hb)
  rw [parse?, toList_render, whole, hread, Option.bind_some, ofStatements?,
    pairsBefore_documentLines]
  change (addSections [] _).bind _ = _
  rw [addSections_documentLines]
  exact Option.map_eq_bind.symm

/-! ## Tables -/

namespace Entries

variable {es : Entries} {name : String}

theorem set_of_lookup (h : es.lookup name = none) (n : Node) :
    es.set name n = es ++ [(name, n)] := by
  refine if_neg fun hany => ?_
  obtain ⟨e, he, hname⟩ := List.any_eq_true.mp hany
  have hne := List.lookup_eq_none_iff.mp h e he
  rw [of_decide_eq_true hname, bne_self_eq_false] at hne
  cases hne

theorem lookup_concat {other : String} (h : es.lookup other = none) (hne : other ≠ name)
    (n : Node) :
    (es ++ [(name, n)]).lookup other = none := by
  rw [List.lookup_append, h, Option.none_or, List.lookup_cons, beq_eq_false_iff_ne.mpr hne]
  rfl

theorem addPair_of_lookup (h : es.lookup name = none) (v : Tree) :
    es.addPair ⟨[], name⟩ v = some (es ++ [(name, .value v)]) := by
  have hheader : ¬(Origin.header = .dotted ↔ ([] : List String) = []) := by decide
  rw [addPair, alter, if_neg hheader, h, set_of_lookup h]
  rfl

theorem addPairs_cons (es : Entries) (k : Key) (v : Tree) (pairs : List (Key × Tree)) :
    es.addPairs ((k, v) :: pairs) = (es.addPair k v).bind fun es => es.addPairs pairs := rfl

/-- Pairs with names of their own are all added. -/
theorem addPairs_eq (es : Entries) {pairs : List (String × Scalar)}
    (hn : (pairs.map Prod.fst).Nodup) (hes : ∀ pair ∈ pairs, es.lookup pair.1 = none) :
    es.addPairs (pairs.map fun pair => (⟨[], pair.1⟩, .scalar pair.2)) =
      some (es ++ pairs.map fun pair => (pair.1, .value (.scalar pair.2))) := by
  induction pairs generalizing es with
  | nil => rw [List.map_nil, List.map_nil, List.append_nil]; rfl
  | cons pair pairs ih =>
      obtain ⟨hname, hn⟩ := List.nodup_cons.mp hn
      obtain ⟨hpair, hes⟩ := List.forall_mem_cons.mp hes
      have hrest : ∀ other ∈ pairs, (es ++ [(pair.1, Node.value (.scalar pair.2))]).lookup other.1 =
          none := by
        intro other ho
        refine lookup_concat (hes other ho) (fun he => hname ?_) _
        exact he ▸ List.mem_map_of_mem ho
      rw [List.map_cons, addPairs_cons, addPair_of_lookup hpair, Option.bind_some, ih _ hn hrest,
        List.map_cons, ← List.append_cons]

/-- Tables under one name that no header opens. Without tables the name does not occur. -/
def under (root : String) (subs : Entries) : Entries :=
  match subs with
  | [] => []
  | sub :: subs => [(root, .table .passed (sub :: subs))]

theorem set_singleton (name : String) (n n' : Node) : set [(name, n)] name n' = [(name, n')] := by
  simp [set]

theorem addTable_under (root : String) {subs : Entries} {pairs : List (String × Scalar)}
    (hs : subs.lookup name = none) (hn : (pairs.map Prod.fst).Nodup) :
    (under root subs).addTable ⟨[root], name⟩
    (pairs.map fun pair => (⟨[], pair.1⟩, .scalar pair.2)) =
      some (under root (subs ++
        [(name, .table .header (pairs.map fun pair => (pair.1, .value (.scalar pair.2))))])) := by
  have hadd := addPairs_eq [] hn fun _ _ => rfl
  cases subs with
  | nil =>
      simp only [addTable, under, alter, List.lookup_nil, Option.bind_eq_bind, Option.bind_some,
        hadd]
      rfl
  | cons sub subs =>
      have hpassed : ¬(Origin.passed = .dotted ∧ Origin.passed = .header) := by decide
      simp only [addTable, under, alter, List.lookup_cons, beq_self_eq_true, if_neg hpassed, hs,
        Option.bind_eq_bind,
        Option.bind_some, hadd, Option.pure_def, set_of_lookup hs, set_singleton]
      rfl

end Entries

/-! ## Sections -/

abbrev NamedPairs := String × List (String × Scalar)

namespace NamedPairs

def block (root : String) (p : NamedPairs) : Block := ⟨[root, p.1], p.2⟩

def node (p : NamedPairs) : String × Node :=
  (p.1, .table .header (p.2.map fun pair => (pair.1, .value (.scalar pair.2))))

def tree (p : NamedPairs) : String × Tree :=
  (p.1, .table (p.2.map fun pair => (pair.1, .scalar pair.2)))

/-- No name needs quotes, no name is written twice, and every number fits. -/
structure Writable (p : NamedPairs) : Prop where
  name : IsBare p.1
  distinct : (p.2.map Prod.fst).Nodup
  pairs : ∀ pair ∈ p.2, IsBare pair.1 ∧ Fits pair.2

end NamedPairs

theorem writable_block {root : String} {p : NamedPairs} (hr : IsBare root) (hp : p.Writable) :
    (p.block root).Writable := by
  refine ⟨⟨rfl, ?_, of_decide_eq_true rfl⟩, hp.pairs⟩
  simpa [NamedPairs.block] using ⟨hr, hp.name⟩

theorem entryTrees_map {α : Type} (f : α → String × Node) (as : List α) :
    entryTrees (as.map f) = as.map fun a => ((f a).1, (f a).2.tree) := by
  induction as with
  | nil => rw [List.map_nil, entryTrees, List.map_nil]
  | cons a as ih => rw [List.map_cons, entryTrees, ih, List.map_cons]

theorem tree_node (p : NamedPairs) : (p.node.1, p.node.2.tree) = p.tree := by
  rw [NamedPairs.node, Node.tree, entryTrees_map, NamedPairs.tree]
  simp only [Node.tree]

/-- The tables that are opened one after the other stand in the same order. -/
theorem addTables_under (root : String) (before : List NamedPairs) {ps : List NamedPairs}
    (hp : ∀ p ∈ ps, p.Writable) (hd : ((before ++ ps).map Prod.fst).Nodup) :
    (ps.map (NamedPairs.block root)).foldlM (fun (es : Entries) b => es.addTable b.key b.entries)
        (Entries.under root (before.map NamedPairs.node)) =
      some (Entries.under root ((before ++ ps).map NamedPairs.node)) := by
  induction ps generalizing before with
  | nil => rw [List.append_nil]; rfl
  | cons p ps ih =>
      obtain ⟨hhead, hp⟩ := List.forall_mem_cons.mp hp
      rw [List.append_cons] at hd ⊢
      have hnew : (before.map NamedPairs.node).lookup p.1 = none := by
        refine List.lookup_eq_none_iff.mpr fun e he => ?_
        obtain ⟨q, hq, rfl⟩ := List.mem_map.mp he
        rw [List.map_append, List.map_append] at hd
        have hne := (List.nodup_append.mp (List.nodup_append.mp hd).1).2.2 q.1
            (List.mem_map_of_mem hq) p.1 (by simp)
        exact bne_iff_ne.mpr hne.symm
      have hadd := Entries.addTable_under root hnew hhead.distinct
      rw [List.map_cons, List.foldlM_cons]
      refine (congrArg (Option.bind · _) hadd).trans ?_
      have hrest := ih (before ++ [p]) hp hd
      rw [List.map_append] at hrest
      exact hrest

/-- Sections that are written under one name are read back. -/
theorem parse?_render_sections {root : String} {ps : List NamedPairs} (hr : IsBare root)
    (hne : ps ≠ []) (hp : ∀ p ∈ ps, p.Writable) (hd : (ps.map Prod.fst).Nodup) :
    parse? (render (ps.map (NamedPairs.block root))) =
      some (.table [(root, .table (ps.map NamedPairs.tree))]) := by
  have hblocks : ∀ b ∈ ps.map (NamedPairs.block root), b.Writable := by
    intro b hb
    obtain ⟨p, hmem, rfl⟩ := List.mem_map.mp hb
    exact writable_block hr (hp p hmem)
  have htree : (Entries.under root (ps.map NamedPairs.node)).tree =
      .table [(root, .table (ps.map NamedPairs.tree))] := by
    cases ps with
    | nil => exact absurd rfl hne
    | cons p ps =>
        have hnodes := entryTrees_map NamedPairs.node (p :: ps)
        simp only [tree_node] at hnodes
        rw [List.map_cons, Entries.under, Entries.tree, entryTrees, Node.tree, ← List.map_cons,
          hnodes, entryTrees]
  have hfold := addTables_under root [] hp hd
  rw [parse?_render hblocks]
  exact (congrArg (Option.map Entries.tree) hfold).trans (congrArg some htree)

end Toml

end SessionDispatch
