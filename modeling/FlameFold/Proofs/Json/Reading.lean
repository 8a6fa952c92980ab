import FlameFold.Proofs.Json.Scalars
import Mathlib.Data.List.TakeWhile

/-!
# A printed JSON value is read back

Printing follows the tree, and so does reading: each bracket, brace, comma and key of a printed
tree is met by the reading function for it. A step of reading needs one unit of fuel, and two
units for each character that is printed are enough.
-/

namespace FlameFold.Json

namespace Tree

mutual

/-- The value that a printed tree is. -/
def value : Tree → Value
  | .text content => .text content
  | .number size => .number (.natural size)
  | .array elements => .array (values elements) true
  | .object members => .object (memberValues members) true
  | .unprintable => .malformed

/-- The values of the elements of an array. -/
def values : List Tree → List Value
  | [] => []
  | first :: rest => value first :: values rest

/-- The members of an object with their values. -/
def memberValues : List (String × Tree) → List (Option String × Value)
  | [] => []
  | (key, tree) :: rest => (some key, value tree) :: memberValues rest

end

mutual

/-- All of a tree can be printed, and its numbers are numbers of 64 bits. -/
def Fits : Tree → Prop
  | .text _ => True
  | .number size => size < Nat.pow 2 64
  | .array elements => AllFit elements
  | .object members => MembersFit members
  | .unprintable => False

/-- All elements of an array can be printed, with numbers of 64 bits. -/
def AllFit : List Tree → Prop
  | [] => True
  | first :: rest => Fits first ∧ AllFit rest

/-- All members of an object can be printed, with numbers of 64 bits. -/
def MembersFit : List (String × Tree) → Prop
  | [] => True
  | (_, tree) :: rest => Fits tree ∧ MembersFit rest

end

end Tree

/-- White space in front of other characters is dropped. -/
theorem skipSpaces_append {spaces : List Char} (h : ∀ c ∈ spaces, isSpace c = true)
    (cs : List Char) : skipSpaces (spaces ++ cs) = skipSpaces cs :=
  List.dropWhile_append_of_pos h

/-- The characters of a new line are white space. -/
theorem isSpace_newLine (depth : Nat) : ∀ c ∈ newLine depth, isSpace c = true := by
  intro c hc
  simp only [newLine, List.mem_cons, List.mem_replicate] at hc
  obtain rfl | ⟨-, rfl⟩ := hc <;> decide

/-- A new line in front of other characters is dropped. -/
theorem skipSpaces_newLine (depth : Nat) (cs : List Char) :
    skipSpaces (newLine depth ++ cs) = skipSpaces cs :=
  skipSpaces_append (isSpace_newLine depth) cs

/-- Nothing is dropped in front of a character that is no white space. -/
theorem skipSpaces_cons {c : Char} (h : isSpace c = false) (cs : List Char) :
    skipSpaces (c :: cs) = c :: cs := by
  simp [skipSpaces, h]

/-- A new line in front of a value makes no difference. -/
theorem readValue_newLine (fuel depth : Nat) (cs : List Char) :
    readValue fuel (newLine depth ++ cs) = readValue fuel cs := by
  cases fuel with
  | zero => rfl
  | succ fuel => rw [readValue, readValue, skipSpaces_newLine]

/-- A digit is no white space. -/
theorem isSpace_digit {c : Char} (h : Number.isDigit c = true) : isSpace c = false := by
  have hspace : c ≠ ' ' := Digits.ne_of_kind h rfl
  have hnewline : c ≠ '\n' := Digits.ne_of_kind h rfl
  have htab : c ≠ '\t' := Digits.ne_of_kind h rfl
  have hreturn : c ≠ '\r' := Digits.ne_of_kind h rfl
  simp [isSpace, hspace, hnewline, htab, hreturn]

/-- A new line in front of elements makes no difference. -/
theorem readElements_newLine (fuel depth : Nat) (cs : List Char) :
    readElements fuel (newLine depth ++ cs) = readElements fuel cs := by
  cases fuel with
  | zero => rfl
  | succ fuel => rw [readElements, readElements, readValue_newLine]

/-- A new line in front of members makes no difference. -/
theorem readMembers_newLine (fuel depth : Nat) (cs : List Char) :
    readMembers fuel (newLine depth ++ cs) = readMembers fuel cs := by
  cases fuel with
  | zero => rfl
  | succ fuel => rw [readMembers, readMembers, skipSpaces_newLine]

/-- A printed value begins with a character that is neither white space nor a closing
bracket. -/
theorem Tree.print_first (depth : Nat) (tree : Tree) :
    ∃ c cs, tree.print depth = c :: cs ∧ isSpace c = false ∧ c ≠ ']' := by
  cases tree with
  | text content => exact ⟨'"', _, by rw [print, quote, List.cons_append], rfl, by decide⟩
  | number size =>
    obtain ⟨first, digits, hdigits⟩ :=
      List.exists_cons_of_ne_nil (Nat.toDigits_ne_nil (n := size) (b := 10))
    have hfirst : Number.isDigit first = true :=
      Number.isDigit_of_mem (n := size) (by simp [hdigits])
    exact ⟨first, digits, by rw [print, Nat.toList_repr, hdigits], isSpace_digit hfirst,
      Digits.ne_of_kind hfirst rfl⟩
  | array elements =>
    cases elements with
    | nil => exact ⟨'[', _, by rw [print], rfl, by decide⟩
    | cons first rest => exact ⟨'[', _, by simp only [print, List.cons_append]; rfl, rfl, by decide⟩
  | object members =>
    cases members with
    | nil => exact ⟨'{', _, by rw [print], rfl, by decide⟩
    | cons first rest => exact ⟨'{', _, by simp only [print, List.cons_append]; rfl, rfl, by decide⟩
  | unprintable => exact ⟨mark, [], by rw [print], rfl, by decide⟩

/-- A printed text is read back. -/
theorem readValue_quote (fuel : Nat) (content : String) (rest : List Char) :
    readValue (fuel + 1) (quote content ++ rest) = (.text content, some rest) := by
  have hquote : quote content ++ rest =
      '"' :: (content.toList.flatMap escape ++ '"' :: rest) := by
    simp [quote]
  have hread := readText_quote content rest
  rw [hquote, readValue, skipSpaces_cons rfl]
  simp [readScalar, hread]

/-- A printed number is read back where no further digit, point or power follows. -/
theorem readValue_number (fuel : Nat) {size : Nat} (h : size < Nat.pow 2 64)
    {rest : List Char} (hrest : Number.Ends rest) :
    readValue (fuel + 1) ((Nat.repr size).toList ++ rest) =
      (.number (.natural size), some rest) := by
  have hread := Number.read_toDigits h hrest
  obtain ⟨first, digits, hdigits⟩ :=
    List.exists_cons_of_ne_nil (Nat.toDigits_ne_nil (n := size) (b := 10))
  have hfirst : Number.isDigit first = true :=
    Number.isDigit_of_mem (n := size) (by simp [hdigits])
  rw [hdigits, List.cons_append] at hread
  rw [Nat.toList_repr, hdigits, List.cons_append, readValue,
    skipSpaces_cons (isSpace_digit hfirst)]
  have hscalar : readScalar (first :: (digits ++ rest)) =
      (.number (.natural size), some rest) := by
    unfold readScalar
    split
    · next heq => exact absurd heq (Digits.cons_ne_of_kind hfirst rfl)
    · next heq => exact absurd heq (Digits.cons_ne_of_kind hfirst rfl)
    · next heq => exact absurd heq (Digits.cons_ne_of_kind hfirst rfl)
    · next heq => exact absurd heq (Digits.cons_ne_of_kind hfirst rfl)
    · rw [hread]
  split
  · next heq => exact absurd heq (Digits.cons_ne_of_kind hfirst rfl)
  · next heq => exact absurd heq (Digits.cons_ne_of_kind hfirst rfl)
  · exact hscalar

/-- A number ends before a new line. -/
theorem Number.ends_newLine (depth : Nat) (rest : List Char) : Ends (newLine depth ++ rest) := by
  intro c hc
  cases hc
  decide

/-- A number ends before a comma. -/
theorem Number.ends_comma (rest : List Char) : Ends (',' :: rest) := by
  intro c hc
  cases hc
  decide

/-- Every printed value is read back that has at most one character for two units of
`fuel`. -/
def ReadsValues (fuel : Nat) : Prop :=
  ∀ (tree : Tree) (depth : Nat) (rest : List Char), tree.Fits →
    2 * (tree.print depth).length ≤ fuel → Number.Ends rest →
    readValue fuel (tree.print depth ++ rest) = (tree.value, some rest)

/-- Printed elements are read back up to their closing bracket, on the same terms. -/
def ReadsElements (fuel : Nat) : Prop :=
  ∀ (first : Tree) (others : List Tree) (depth outer : Nat) (rest : List Char),
    first.Fits → Tree.AllFit others →
    2 * ((first.print depth).length + (Tree.printRest depth others).length) < fuel →
    readElements fuel (first.print depth ++
        (Tree.printRest depth others ++ (newLine outer ++ ']' :: rest))) =
      (first.value :: Tree.values others, some rest)

/-- Printed members are read back up to their closing brace, on the same terms. -/
def ReadsMembers (fuel : Nat) : Prop :=
  ∀ (key : String) (first : Tree) (others : List (String × Tree)) (depth outer : Nat)
    (rest : List Char), first.Fits → Tree.MembersFit others →
    2 * ((first.print depth).length + (Tree.printMembers depth others).length) < fuel →
    readMembers fuel (quote key ++ ':' :: ' ' :: (first.print depth ++
        (Tree.printMembers depth others ++ (newLine outer ++ '}' :: rest)))) =
      ((some key, first.value) :: Tree.memberValues others, some rest)

/-- A value is read back if what stands in its brackets or braces is. -/
theorem ReadsValues.step {fuel : Nat} (helements : ReadsElements fuel)
    (hmembers : ReadsMembers fuel) : ReadsValues (fuel + 1) := by
  intro tree depth rest htree hfuel hrest
  match tree with
  | .text content =>
    rw [Tree.print, Tree.value]
    exact readValue_quote fuel content rest
  | .number size =>
    rw [Tree.print, Tree.value]
    exact readValue_number fuel htree hrest
  | .array [] =>
    rw [Tree.print, Tree.value, Tree.values]
    rfl
  | .array (first :: others) =>
    obtain ⟨hfirst, hothers⟩ := htree
    have hopen : (Tree.array (first :: others)).print depth ++ rest =
        '[' :: (newLine (depth + 1) ++ (first.print (depth + 1) ++
          (Tree.printRest (depth + 1) others ++ (newLine depth ++ ']' :: rest)))) := by
      simp [Tree.print]
    have hless : 2 * ((first.print (depth + 1)).length +
        (Tree.printRest (depth + 1) others).length) < fuel := by
      simp only [Tree.print, List.length_append, List.length_cons, List.length_nil] at hfuel
      omega
    have hread := helements first others (depth + 1) depth rest hfirst hothers hless
    obtain ⟨c, cs, hprint, hspace, hclose⟩ := first.print_first (depth + 1)
    rw [hprint, List.cons_append] at hread
    rw [hopen, readValue, skipSpaces_cons rfl]
    simp only [skipSpaces_newLine]
    rw [hprint, List.cons_append, skipSpaces_cons hspace]
    split
    · next heq => exact absurd (List.cons.inj heq).1 hclose
    · rw [hread, Tree.value, Tree.values]
      rfl
  | .object [] =>
    rw [Tree.print, Tree.value, Tree.memberValues]
    rfl
  | .object ((key, first) :: others) =>
    obtain ⟨hfirst, hothers⟩ := htree
    have hopen : (Tree.object ((key, first) :: others)).print depth ++ rest =
        '{' :: (newLine (depth + 1) ++ (quote key ++ ':' :: ' ' :: (first.print (depth + 1) ++
          (Tree.printMembers (depth + 1) others ++ (newLine depth ++ '}' :: rest))))) := by
      simp [Tree.print]
    have hless : 2 * ((first.print (depth + 1)).length +
        (Tree.printMembers (depth + 1) others).length) < fuel := by
      simp only [Tree.print, List.length_append, List.length_cons, List.length_nil] at hfuel
      omega
    have hread := hmembers key first others (depth + 1) depth rest hfirst hothers hless
    have hquote : quote key ++ ':' :: ' ' :: (first.print (depth + 1) ++
        (Tree.printMembers (depth + 1) others ++ (newLine depth ++ '}' :: rest))) =
        '"' :: (key.toList.flatMap escape ++ ['"'] ++ ':' :: ' ' :: (first.print (depth + 1) ++
          (Tree.printMembers (depth + 1) others ++ (newLine depth ++ '}' :: rest)))) := rfl
    rw [hquote] at hread
    rw [hopen, readValue, skipSpaces_cons rfl]
    simp only [skipSpaces_newLine]
    rw [hquote, skipSpaces_cons rfl]
    split
    · next heq => exact absurd (List.cons.inj heq).1 (by decide)
    · rw [hread, Tree.value, Tree.memberValues]
      rfl
  | .unprintable => exact htree.elim

/-- The elements of an array are read back if the first one and the others are. -/
theorem ReadsElements.step {fuel : Nat} (hvalues : ReadsValues fuel)
    (helements : ReadsElements fuel) : ReadsElements (fuel + 1) := by
  intro first others depth outer rest hfirst hothers hfuel
  match others with
  | [] =>
    have hvalue := hvalues first depth (newLine outer ++ ']' :: rest) hfirst (by omega)
      (Number.ends_newLine outer _)
    rw [Tree.printRest, List.nil_append, readElements, hvalue]
    simp only [skipSpaces_newLine]
    rw [skipSpaces_cons rfl, Tree.values]
    rfl
  | next :: more =>
    obtain ⟨hnext, hmore⟩ := hothers
    have hcomma : Tree.printRest depth (next :: more) ++ (newLine outer ++ ']' :: rest) =
        ',' :: (newLine depth ++ (next.print depth ++
          (Tree.printRest depth more ++ (newLine outer ++ ']' :: rest)))) := by
      simp [Tree.printRest]
    simp only [Tree.printRest, List.length_append, List.length_cons] at hfuel
    have hvalue := hvalues first depth _ hfirst (by omega)
      (Number.ends_comma (newLine depth ++ (next.print depth ++
        (Tree.printRest depth more ++ (newLine outer ++ ']' :: rest)))))
    have hread := helements next more depth outer rest hnext hmore (by omega)
    rw [hcomma, readElements, hvalue]
    simp only
    rw [skipSpaces_cons rfl, Tree.values]
    simp only [readElements_newLine, hread]

/-- A member is read with its key, up to what follows its value. -/
theorem readMembers_member {fuel : Nat} (hvalues : ReadsValues fuel) (key : String)
    {first : Tree} (depth : Nat) (hfirst : first.Fits)
    (hfuel : 2 * (first.print depth).length ≤ fuel) {rest : List Char} (hrest : Number.Ends rest) :
    readMembers (fuel + 1) (quote key ++ ':' :: ' ' :: (first.print depth ++ rest)) =
      match skipSpaces rest with
      | ',' :: rest =>
        let (members, after) := readMembers fuel rest
        ((some key, first.value) :: members, after)
      | '}' :: rest => ([(some key, first.value)], some rest)
      | _ => ([(some key, first.value)], none) := by
  have hquote : quote key ++ ':' :: ' ' :: (first.print depth ++ rest) =
      '"' :: (key.toList.flatMap escape ++ '"' :: ':' :: ' ' :: (first.print depth ++ rest)) := by
    simp [quote]
  have hkey := readText_quote key (':' :: ' ' :: (first.print depth ++ rest))
  have hspace : readValue fuel (' ' :: (first.print depth ++ rest)) =
      readValue fuel (first.print depth ++ rest) := by
    cases fuel with
    | zero => rfl
    | succ fuel => rw [readValue, readValue]; rfl
  have hvalue := hvalues first depth rest hfirst hfuel hrest
  rw [hquote, readMembers, skipSpaces_cons rfl]
  simp only [hkey]
  rw [skipSpaces_cons rfl]
  simp only [hspace]
  generalize readValue fuel (first.print depth ++ rest) = found at hvalue ⊢
  subst hvalue
  rfl

/-- The members of an object are read back if the first value and the others are. -/
theorem ReadsMembers.step {fuel : Nat} (hvalues : ReadsValues fuel)
    (hmembers : ReadsMembers fuel) : ReadsMembers (fuel + 1) := by
  intro key first others depth outer rest hfirst hothers hfuel
  match others with
  | [] =>
    rw [Tree.printMembers, List.nil_append,
      readMembers_member hvalues key depth hfirst (by omega) (Number.ends_newLine outer _),
      skipSpaces_newLine, skipSpaces_cons rfl, Tree.memberValues]
    rfl
  | (next, value) :: more =>
    obtain ⟨hnext, hmore⟩ := hothers
    have hcomma : Tree.printMembers depth ((next, value) :: more) ++
        (newLine outer ++ '}' :: rest) =
        ',' :: (newLine depth ++ (quote next ++ ':' :: ' ' :: (value.print depth ++
          (Tree.printMembers depth more ++ (newLine outer ++ '}' :: rest))))) := by
      simp [Tree.printMembers]
    simp only [Tree.printMembers, List.length_append, List.length_cons] at hfuel
    have hread := hmembers next value more depth outer rest hnext hmore (by omega)
    rw [hcomma, readMembers_member hvalues key depth hfirst (by omega) (Number.ends_comma _),
      skipSpaces_cons rfl, Tree.memberValues]
    simp only [readMembers_newLine, hread]

/-- Printed values, elements and members are read back, whatever the fuel. -/
theorem reads_printed (fuel : Nat) :
    ReadsValues fuel ∧ ReadsElements fuel ∧ ReadsMembers fuel := by
  induction fuel with
  | zero =>
    refine ⟨?_, ?_, ?_⟩
    · intro tree depth rest htree hfuel
      obtain ⟨c, cs, hprint, -, -⟩ := tree.print_first depth
      rw [hprint, List.length_cons] at hfuel
      omega
    · intro first others depth outer rest hfirst hothers hfuel
      omega
    · intro key first others depth outer rest hfirst hothers hfuel
      omega
  | succ fuel ih =>
    obtain ⟨hvalues, helements, hmembers⟩ := ih
    exact ⟨.step helements hmembers, .step hvalues helements, .step hvalues hmembers⟩

/-- The text of a tree is read as the value that the tree is, and nothing follows it. -/
theorem parse_render {tree : Tree} (htree : tree.Fits) :
    parse tree.render = (tree.value, true) := by
  have hend : Number.Ends [] := by
    intro c hc
    cases hc
  have hread := (reads_printed (2 * (tree.print 0).length + 2)).1 tree 0 [] htree (by omega) hend
  rw [List.append_nil] at hread
  simp [parse, Tree.render, hread, skipSpaces]

/-- No character is printed in a text with the mark. -/
theorem mark_notMem_escape (c : Char) : Tree.mark ∉ escape c := by
  have hdigit : ∀ n, n < 16 → Text.hexDigit n ≠ Tree.mark := by decide
  unfold escape
  split_ifs with hquote hslash hback hfeed hline hreturn htab hcontrol
  all_goals try decide
  · have hhigh := hdigit (c.toNat / 16) (by omega)
    have hlow := hdigit (c.toNat % 16) (by omega)
    simp only [List.mem_cons, List.not_mem_nil, or_false, not_or]
    exact ⟨by decide, by decide, by decide, by decide, hhigh.symm, hlow.symm⟩
  · rw [List.mem_singleton]
    rintro rfl
    exact hcontrol (by decide)

theorem mark_notMem_quote (content : String) : Tree.mark ∉ quote content := by
  have hends : Tree.mark ≠ '"' := by decide
  simp only [quote, List.cons_append, List.mem_cons, List.mem_append, List.mem_flatMap,
    List.not_mem_nil, or_false, not_or, not_exists, not_and]
  exact ⟨hends, fun c _ => mark_notMem_escape c, hends⟩

theorem mark_notMem_newLine (depth : Nat) : Tree.mark ∉ newLine depth :=
  fun hmem => absurd (isSpace_newLine depth _ hmem) (by decide)

theorem mark_notMem_number (size : Nat) : Tree.mark ∉ (Nat.repr size).toList := by
  intro hmem
  rw [Nat.toList_repr] at hmem
  exact absurd (Number.isDigit_of_mem hmem) (by decide)

mutual

/-- A tree that can be printed is printed without the mark. -/
theorem Tree.mark_notMem_print (depth : Nat) :
    ∀ tree : Tree, tree.Fits → mark ∉ tree.print depth
  | .text content, _ => by
    rw [print]
    exact mark_notMem_quote content
  | .number size, _ => by
    rw [print]
    exact mark_notMem_number size
  | .array [], _ => by
    rw [print]
    decide
  | .array (first :: rest), h => by
    have hfirst := mark_notMem_print (depth + 1) first h.1
    have hrest := mark_notMem_printRest (depth + 1) rest h.2
    have hends : mark ≠ '[' ∧ mark ≠ ']' := by decide
    simp [print, mark_notMem_newLine, hfirst, hrest, hends]
  | .object [], _ => by
    rw [print]
    decide
  | .object ((key, tree) :: rest), h => by
    have hfirst := mark_notMem_print (depth + 1) tree h.1
    have hrest := mark_notMem_printMembers (depth + 1) rest h.2
    have hends : mark ≠ '{' ∧ mark ≠ '}' ∧ mark ≠ ':' ∧ mark ≠ ' ' := by decide
    simp [print, mark_notMem_newLine, mark_notMem_quote, hfirst, hrest, hends]
  | .unprintable, h => h.elim

/-- Elements that can be printed are printed without the mark. -/
theorem Tree.mark_notMem_printRest (depth : Nat) :
    ∀ trees : List Tree, AllFit trees → mark ∉ printRest depth trees
  | [], _ => by simp [printRest]
  | first :: rest, h => by
    have hfirst := mark_notMem_print depth first h.1
    have hrest := mark_notMem_printRest depth rest h.2
    have hcomma : mark ≠ ',' := by decide
    simp [printRest, mark_notMem_newLine, hfirst, hrest, hcomma]

/-- Members that can be printed are printed without the mark. -/
theorem Tree.mark_notMem_printMembers (depth : Nat) :
    ∀ members : List (String × Tree), MembersFit members → mark ∉ printMembers depth members
  | [], _ => by simp [printMembers]
  | (key, tree) :: rest, h => by
    have hfirst := mark_notMem_print depth tree h.1
    have hrest := mark_notMem_printMembers depth rest h.2
    have hends : mark ≠ ',' ∧ mark ≠ ':' ∧ mark ≠ ' ' := by decide
    simp [printMembers, mark_notMem_newLine, mark_notMem_quote, hfirst, hrest, hends]

end

/-- Of a tree that can be printed all of the text is printed. -/
theorem Tree.begun_eq_render {tree : Tree} (h : tree.Fits) : tree.begun = tree.render := by
  have hall : ∀ c ∈ tree.print 0, (c != mark) = true := fun c hc =>
    bne_iff_ne.mpr (ne_of_mem_of_not_mem hc (mark_notMem_print 0 tree h))
  rw [begun, render, List.takeWhile_eq_self_iff.mpr hall]

end FlameFold.Json
