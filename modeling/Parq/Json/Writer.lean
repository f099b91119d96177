import Parq.Json.Core

/-!
# Writing JSON texts

A writer of trees without blanks, for any way to write the characters of a string.  Whether
the reader gives a tree back is decided by its strings alone.
-/

namespace Parq.Json

/-- A way to write a string between quotation marks.  The reader gives back the readable
strings and refuses what is written for the others. -/
structure Encoder where
  encode : String → List Char
  readable : String → Bool
  readString_encode : ∀ {fuel : Nat} (s : String) (rest : List Char), (encode s).length < fuel →
    readString fuel (encode s ++ '"' :: rest) = if readable s then some (s.toList, rest) else none

namespace Encoder

def quote (E : Encoder) (s : String) : List Char :=
  '"' :: E.encode s ++ ['"']

end Encoder

/-- Texts with commas between them. -/
def separated : List (List Char) → List Char
  | [] => []
  | [text] => text
  | text :: next :: rest => text ++ ',' :: separated (next :: rest)

mutual

/-- The text of a tree. -/
def Tree.render (E : Encoder) : Tree → List Char
  | .null => "null".toList
  | .bool b => (if b then "true" else "false").toList
  | .number literal _ => literal.toList
  | .string s => E.quote s
  | .array items => '[' :: separated (renderItems E items) ++ [']']
  | .object members => '{' :: separated (renderMembers E members) ++ ['}']

/-- The texts of the items of an array. -/
def renderItems (E : Encoder) : List Tree → List (List Char)
  | [] => []
  | item :: rest => item.render E :: renderItems E rest

/-- The texts of the members of an object. -/
def renderMembers (E : Encoder) : List (String × Tree) → List (List Char)
  | [] => []
  | (name, value) :: rest => (E.quote name ++ ':' :: value.render E) :: renderMembers E rest

end

mutual

/-- Every string of a tree is readable. -/
def Tree.readable (E : Encoder) : Tree → Bool
  | .string s => E.readable s
  | .array items => itemsReadable E items
  | .object members => membersReadable E members
  | _ => true

/-- `Tree.readable` for the items of an array. -/
def itemsReadable (E : Encoder) : List Tree → Bool
  | [] => true
  | item :: rest => item.readable E && itemsReadable E rest

/-- `Tree.readable` for the members of an object. -/
def membersReadable (E : Encoder) : List (String × Tree) → Bool
  | [] => true
  | (name, value) :: rest => (E.readable name && value.readable E) && membersReadable E rest

end

section Writer

variable (E : Encoder)

/-- The text of a member of an object. -/
def renderMember (member : String × Tree) : List Char :=
  E.quote member.1 ++ ':' :: member.2.render E

def memberReadable (member : String × Tree) : Bool :=
  E.readable member.1 && member.2.readable E

theorem renderItems_eq_map (items : List Tree) :
    renderItems E items = items.map (Tree.render E) := by
  induction items with
  | nil => rfl
  | cons item rest ih => rw [renderItems, ih, List.map_cons]

theorem renderMembers_eq_map (members : List (String × Tree)) :
    renderMembers E members = members.map (renderMember E) := by
  induction members with
  | nil => rfl
  | cons member rest ih => rw [renderMembers, ih, List.map_cons, renderMember]

theorem itemsReadable_eq_all (items : List Tree) :
    itemsReadable E items = items.all (Tree.readable E) := by
  induction items with
  | nil => rfl
  | cons item rest ih => rw [itemsReadable, ih, List.all_cons]

theorem membersReadable_eq_all (members : List (String × Tree)) :
    membersReadable E members = members.all (memberReadable E) := by
  induction members with
  | nil => rfl
  | cons member rest ih => rw [membersReadable, ih, List.all_cons, memberReadable]

end Writer

/-! ## Where a value begins and ends -/

/-- What stands behind a value does not continue a numeral. -/
def Ends (rest : List Char) : Prop :=
  ∀ c ∈ rest.head?, isNumeric c = false

/-- A character with which a value or a member begins. -/
def Opens (c : Char) : Prop :=
  isBlank c = false ∧ c ≠ ']' ∧ c ≠ '}'

theorem ends_nil : Ends [] :=
  nofun

theorem ends_cons {c : Char} (other : isNumeric c = false) (rest : List Char) :
    Ends (c :: rest) := by
  rintro _ ⟨⟩
  exact other

theorem skip_cons {c : Char} (solid : isBlank c = false) (rest : List Char) :
    skip (c :: rest) = c :: rest := by
  rw [skip, List.dropWhile_cons, if_neg (by simp [solid])]

/-! ## Numerals -/

theorem isNumeric_of_isDigit {c : Char} (digit : c.isDigit = true) : isNumeric c = true := by
  simp [isNumeric, digit]

theorem isNumeric_of_isExponent {text : List Char} (exponent : isExponent text = true) :
    ∀ c ∈ text, isNumeric c = true := by
  have digits : ∀ {rest : List Char}, rest.all Char.isDigit = true →
      ∀ c ∈ rest, isNumeric c = true :=
    fun all c mem => isNumeric_of_isDigit (List.all_eq_true.mp all c mem)
  unfold isExponent at exponent
  split at exponent
  · exact List.forall_mem_nil _
  case h_6 | h_7 =>
    rw [Bool.and_eq_true] at exponent
    exact List.forall_mem_cons.mpr ⟨rfl, digits exponent.2⟩
  case h_8 => cases exponent
  all_goals
    rw [Bool.and_eq_true] at exponent
    exact List.forall_mem_cons.mpr ⟨rfl, List.forall_mem_cons.mpr ⟨rfl, digits exponent.2⟩⟩

/-- What begins with digits is made of such characters when what is behind them is. -/
theorem isNumeric_of_dropWhile {text : List Char}
    (behind : ∀ c ∈ text.dropWhile Char.isDigit, isNumeric c = true) :
    ∀ c ∈ text, isNumeric c = true := by
  rw [← List.takeWhile_append_dropWhile (p := Char.isDigit) (l := text)]
  intro c mem
  rcases List.mem_append.mp mem with digit | other
  · exact isNumeric_of_isDigit (List.mem_takeWhile_imp digit)
  · exact behind c other

theorem isNumeric_of_isFraction {text : List Char} (fraction : isFraction text = true) :
    ∀ c ∈ text, isNumeric c = true := by
  unfold isFraction at fraction
  split at fraction
  · rw [Bool.and_eq_true] at fraction
    have behind := isNumeric_of_dropWhile (isNumeric_of_isExponent fraction.2)
    exact List.forall_mem_cons.mpr ⟨rfl, behind⟩
  · exact isNumeric_of_isExponent fraction

/-- A numeral is made of the characters for numerals. -/
theorem isNumeric_of_isNumeral {literal : List Char} (valid : isNumeral literal = true) :
    ∀ c ∈ literal, isNumeric c = true := by
  rw [isNumeral, Bool.and_eq_true] at valid
  cases literal with
  | nil => exact List.forall_mem_nil _
  | cons c rest =>
      by_cases signed : c = '-'
      · subst signed
        have unsigned := isNumeric_of_dropWhile (isNumeric_of_isFraction valid.2)
        exact List.forall_mem_cons.mpr ⟨rfl, unsigned⟩
      · rw [List.head?_cons, if_neg (by simpa using signed)] at valid
        exact isNumeric_of_dropWhile (isNumeric_of_isFraction valid.2)

/-- A numeral begins with a character for numerals. -/
theorem exists_cons_of_isNumeral {literal : List Char} (valid : isNumeral literal = true) :
    ∃ c rest, literal = c :: rest ∧ isNumeric c = true := by
  cases literal with
  | nil => cases valid
  | cons c rest => exact ⟨c, rest, rfl, isNumeric_of_isNumeral valid c List.mem_cons_self⟩

theorem readNumber_literal (literal : String) (valid : isNumeral literal.toList = true)
    {rest : List Char} (ends : Ends rest) :
    readNumber (literal.toList ++ rest) = some (.number literal valid, rest) := by
  have numeric := isNumeric_of_isNumeral valid
  have taken : rest.takeWhile isNumeric = [] := by
    cases rest with
    | nil => rfl
    | cons c rest => simp [ends c rfl]
  have dropped : rest.dropWhile isNumeric = rest := by
    cases rest with
    | nil => rfl
    | cons c rest => simp [ends c rfl]
  unfold readNumber
  rw [List.takeWhile_append_of_pos numeric, List.dropWhile_append_of_pos numeric, taken, dropped,
    List.append_nil, String.ofList_toList]
  exact dif_pos valid

/-- The decimal digits of a positive number do not begin with zero. -/
theorem head?_toDigits {n : Nat} (positive : 0 < n) : (Nat.toDigits 10 n).head? ≠ some '0' := by
  induction n using Nat.strongRecOn with
  | ind n ih =>
      by_cases small : n < 10
      · rw [Nat.toDigits_of_lt_base small, List.head?_cons]
        have digits : ∀ d < 10, 0 < d → some (Nat.digitChar d) ≠ some '0' := by decide
        exact digits n small positive
      · rw [Nat.toDigits_of_base_le (by decide) (by omega), List.head?_append,
          Option.or_of_isSome (List.isSome_head?.mpr Nat.toDigits_ne_nil)]
        exact ih (n / 10) (by omega) (by omega)

theorem isDigit_of_mem_toDigits (n : Nat) : ∀ c ∈ Nat.toDigits 10 n, c.isDigit = true :=
  fun _ mem => Nat.isDigit_of_mem_toDigits (by decide) (by decide) mem

theorem isWhole_toDigits (n : Nat) : isWhole (Nat.toDigits 10 n) = true := by
  have digits := isDigit_of_mem_toDigits n
  cases n with
  | zero => rfl
  | succ n =>
      have head := head?_toDigits n.succ_pos
      rcases written : Nat.toDigits 10 (n + 1) with _ | ⟨c, _ | ⟨d, rest⟩⟩
      · exact absurd written Nat.toDigits_ne_nil
      · exact digits c (by simp [written])
      · rw [written] at head digits
        have leading : c ≠ '0' := by simpa using head
        change (decide (c ≠ '0') && (c :: d :: rest).all Char.isDigit) = true
        rw [decide_eq_true leading, Bool.true_and]
        exact List.all_eq_true.mpr digits

/-- The decimal digits of a natural number are a numeral. -/
theorem isNumeral_repr (n : Nat) : isNumeral n.repr.toList = true := by
  have digits := isDigit_of_mem_toDigits n
  have unsigned : (Nat.toDigits 10 n).head? ≠ some '-' := by
    intro signed
    exact absurd (digits '-' (List.mem_of_mem_head? signed)) (by decide)
  rw [Nat.toList_repr, isNumeral, if_neg unsigned, List.takeWhile_eq_self_iff.mpr digits,
    List.dropWhile_eq_nil_iff.mpr digits, isWhole_toDigits]
  rfl

theorem opens_of_isNumeric {c : Char} (numeric : isNumeric c = true) : Opens c := by
  refine ⟨?_, ?_, ?_⟩
  · rw [← Bool.not_eq_true]
    intro blank
    simp only [isBlank, Bool.or_eq_true, decide_eq_true_eq] at blank
    rcases blank with ((rfl | rfl) | rfl) | rfl <;> exact absurd numeric (by decide)
  · rintro rfl
    exact absurd numeric (by decide)
  · rintro rfl
    exact absurd numeric (by decide)

theorem readValue_of_isNumeric {fuel : Nat} {c : Char} (numeric : isNumeric c = true)
    (rest : List Char) : readValue (fuel + 1) (c :: rest) = readNumber (c :: rest) := by
  rw [readValue, skip_cons (opens_of_isNumeric numeric).1]
  split
  case h_8 => rename_i same; rw [same]
  all_goals
    rename_i same
    cases same
  all_goals exact absurd numeric (by decide)

/-! ## Entries -/

section Entries

theorem length_le_separated {text : List Char} {texts : List (List Char)} (mem : text ∈ texts) :
    text.length ≤ (separated texts).length := by
  fun_induction separated texts with
  | case1 => cases mem
  | case2 only => rw [List.mem_singleton.mp mem]
  | case3 first next rest ih =>
      rw [List.length_append, List.length_cons]
      rcases List.mem_cons.mp mem with rfl | later
      · omega
      · have := ih later
        omega

theorem count_le_separated {texts : List (List Char)} (solid : ∀ text ∈ texts, text ≠ []) :
    texts.length ≤ (separated texts).length := by
  fun_induction separated texts with
  | case1 => exact Nat.le_refl 0
  | case2 only => exact List.length_pos_iff.mpr (solid only List.mem_cons_self)
  | case3 first next rest ih =>
      have later := ih fun text mem => solid text (List.mem_cons_of_mem _ mem)
      calc (first :: next :: rest).length
          ≤ (separated (next :: rest)).length + 1 := Nat.succ_le_succ later
        _ ≤ (first ++ ',' :: separated (next :: rest)).length := by
          rw [List.length_append, List.length_cons]
          omega

/-- The brackets that close an array and an object. -/
def Closes (c : Char) : Prop :=
  c = ']' ∨ c = '}'

variable {α : Type} {read : List Char → Option (α × List Char)} {write : α → List Char}
  {good : α → Bool} {close : Char}

/-- An entry is read back from what is written for it when it is good, and refused when it
is not. -/
def Reads (read : List Char → Option (α × List Char)) (write : α → List Char) (good : α → Bool)
    (entry : α) : Prop :=
  ∀ rest, Ends rest → read (write entry ++ rest) = if good entry then some (entry, rest) else none

theorem Closes.ends (closes : Closes close) (rest : List Char) : Ends (close :: rest) := by
  rcases closes with rfl | rfl <;> exact ends_cons (by decide) rest

theorem Closes.skip (closes : Closes close) (rest : List Char) :
    skip (close :: rest) = close :: rest := by
  rcases closes with rfl | rfl <;> exact skip_cons (by decide) rest

theorem Closes.ne_comma (closes : Closes close) : close ≠ ',' := by
  rcases closes with rfl | rfl <;> decide

/-- Entries that are read one by one are read in a row, when there are any. -/
theorem readEntries_separated (closes : Closes close) {entries : List α} (some_entry : entries ≠ [])
    (reads : ∀ entry ∈ entries, Reads read write good entry) {fuel : Nat}
    (enough : entries.length ≤ fuel) (rest : List Char) :
    readEntries read close fuel (separated (entries.map write) ++ close :: rest) =
      if entries.all good then some (entries, rest) else none := by
  induction entries generalizing fuel with
  | nil => exact absurd rfl some_entry
  | cons entry others ih =>
      cases fuel with
      | zero => cases enough
      | succ fuel =>
          have read_entry := reads entry List.mem_cons_self
          rw [readEntries]
          cases others with
          | nil =>
              have alone := read_entry (close :: rest) (closes.ends rest)
              rw [List.map_singleton, separated, alone]
              cases good_entry : good entry with
              | false => simp [good_entry]
              | true => simp [good_entry, closes.skip, closes.ne_comma]
          | cons next others =>
              have followed := read_entry
                (',' :: (separated ((next :: others).map write) ++ close :: rest))
                (ends_cons (by decide) _)
              have behind := ih (List.cons_ne_nil next others)
                (fun entry mem => reads entry (List.mem_cons_of_mem _ mem))
                (Nat.le_of_succ_le_succ enough)
              rw [List.map_cons, List.map_cons, separated, List.append_assoc, List.cons_append,
                ← List.map_cons, followed]
              cases good_entry : good entry with
              | false => simp [good_entry]
              | true =>
                  have comma := skip_cons (show isBlank ',' = false by decide)
                  have all_good : (entry :: next :: others).all good =
                      (next :: others).all good := by
                    rw [List.all_cons, good_entry, Bool.true_and]
                  simp only [if_true, Option.bind_eq_bind, Option.bind_some, comma, behind,
                    all_good]
                  split <;> rfl

theorem separated_cons (c : Char) (text : List Char) (texts : List (List Char)) :
    separated ((c :: text) :: texts) = c :: separated (text :: texts) := by
  cases texts <;> rfl

/-- Entries that are read one by one are read between brackets. -/
theorem readBody_separated (closes : Closes close) {entries : List α}
    (opens : ∀ entry ∈ entries, ∃ c text, write entry = c :: text ∧ Opens c)
    (reads : ∀ entry ∈ entries, Reads read write good entry) {fuel : Nat}
    (enough : (separated (entries.map write)).length ≤ fuel) (rest : List Char) :
    readBody read close fuel (separated (entries.map write) ++ close :: rest) =
      if entries.all good then some (entries, rest) else none := by
  cases entries with
  | nil => simp [separated, readBody, closes.skip]
  | cons entry others =>
      have solid : ∀ text ∈ (entry :: others).map write, text ≠ [] := by
        intro text mem
        rcases List.mem_map.mp mem with ⟨entry, entry_mem, rfl⟩
        rcases opens entry entry_mem with ⟨c, text, begins, _⟩
        rw [begins]
        exact List.cons_ne_nil c text
      have count := (count_le_separated solid).trans enough
      rw [List.length_map] at count
      have read_all := readEntries_separated closes (List.cons_ne_nil entry others) reads count rest
      rcases opens entry List.mem_cons_self with ⟨c, text, begins, not_blank, not_bracket⟩
      have not_close : c ≠ close := by
        rcases closes with rfl | rfl
        · exact not_bracket.1
        · exact not_bracket.2
      rw [← read_all, readBody, List.map_cons, begins, separated_cons, List.cons_append,
        skip_cons not_blank]
      exact if_neg not_close

end Entries

/-! ## Trees -/

section Trees

variable (E : Encoder)

theorem quote_append (s : String) (rest : List Char) :
    E.quote s ++ rest = '"' :: (E.encode s ++ '"' :: rest) := by
  simp [Encoder.quote]

theorem length_encode_lt (s : String) : (E.encode s).length < (E.quote s).length := by
  rw [Encoder.quote, List.cons_append, List.length_cons, List.length_append]
  omega

/-- A member is read back when its name is readable and its value is read back. -/
theorem readMember_renderMember {read : List Char → Option (Tree × List Char)} {fuel : Nat}
    {member : String × Tree} {rest : List Char} (enough : (E.encode member.1).length < fuel)
    (value : read (member.2.render E ++ rest) =
      if member.2.readable E then some (member.2, rest) else none) :
    readMember read fuel (renderMember E member ++ rest) =
      if memberReadable E member then some (member, rest) else none := by
  have quotation := skip_cons (show isBlank '"' = false by decide)
  have colon := skip_cons (show isBlank ':' = false by decide)
  rw [renderMember, List.append_assoc, quote_append, List.cons_append, readMember, quotation]
  simp only [E.readString_encode _ _ enough, memberReadable, Bool.and_eq_true]
  cases E.readable member.1 with
  | false => simp
  | true =>
      simp only [if_true, Option.bind_eq_bind, Option.bind_some, colon, value, true_and,
        String.ofList_toList]
      split <;> rfl

theorem render_eq_cons (tree : Tree) : ∃ c text, tree.render E = c :: text ∧ Opens c := by
  cases tree with
  | null => exact ⟨'n', _, rfl, by decide, by decide, by decide⟩
  | bool b => cases b <;> exact ⟨_, _, rfl, by decide, by decide, by decide⟩
  | string s => exact ⟨'"', _, rfl, by decide, by decide, by decide⟩
  | array items => exact ⟨'[', _, rfl, by decide, by decide, by decide⟩
  | object members => exact ⟨'{', _, rfl, by decide, by decide, by decide⟩
  | number literal valid =>
      rcases exists_cons_of_isNumeral valid with ⟨c, rest, chars, numeric⟩
      exact ⟨c, rest, chars, opens_of_isNumeric numeric⟩

theorem readValue_string (s : String) {fuel : Nat} (enough : (E.quote s).length ≤ fuel)
    (rest : List Char) :
    readValue (fuel + 1) (E.quote s ++ rest) =
      if E.readable s then some (.string s, rest) else none := by
  have quotation := skip_cons (show isBlank '"' = false by decide)
  have inside : (E.encode s).length < fuel := Nat.lt_of_lt_of_le (length_encode_lt E s) enough
  rw [quote_append, readValue, quotation]
  simp only [E.readString_encode _ _ inside]
  split <;> simp

theorem readValue_number (literal : String) (valid : isNumeral literal.toList = true) (fuel : Nat)
    {rest : List Char} (ends : Ends rest) :
    readValue (fuel + 1) (literal.toList ++ rest) = some (.number literal valid, rest) := by
  rcases exists_cons_of_isNumeral valid with ⟨c, text, chars, numeric⟩
  rw [← readNumber_literal literal valid ends, chars]
  exact readValue_of_isNumeric numeric (text ++ rest)

theorem readValue_array {items : List Tree} {fuel : Nat}
    (reads : ∀ item ∈ items, Reads (readValue fuel) (Tree.render E) (Tree.readable E) item)
    (enough : (separated (items.map (Tree.render E))).length ≤ fuel) (rest : List Char) :
    readValue (fuel + 1) ((Tree.array items).render E ++ rest) =
      if (Tree.array items).readable E then some (.array items, rest) else none := by
  have bracket := skip_cons (show isBlank '[' = false by decide)
  have opens : ∀ item ∈ items, ∃ c text, item.render E = c :: text ∧ Opens c :=
    fun item _ => render_eq_cons E item
  have body := readBody_separated (.inl rfl) opens reads enough rest
  rw [Tree.render, renderItems_eq_map, List.append_assoc, List.cons_append, readValue, bracket]
  simp only [List.singleton_append, body, Tree.readable, itemsReadable_eq_all]
  split <;> rfl

theorem readValue_object {members : List (String × Tree)} {fuel : Nat}
    (reads : ∀ member ∈ members,
      Reads (readValue fuel) (Tree.render E) (Tree.readable E) member.2)
    (enough : (separated (members.map (renderMember E))).length ≤ fuel) (rest : List Char) :
    readValue (fuel + 1) ((Tree.object members).render E ++ rest) =
      if (Tree.object members).readable E then some (.object members, rest) else none := by
  have bracket := skip_cons (show isBlank '{' = false by decide)
  have opens : ∀ member ∈ members, ∃ c text, renderMember E member = c :: text ∧ Opens c :=
    fun member _ => ⟨'"', _, rfl, by decide, by decide, by decide⟩
  have read_member : ∀ member ∈ members,
      Reads (readMember (readValue fuel) fuel) (renderMember E) (memberReadable E) member := by
    intro member mem rest ends
    apply readMember_renderMember E _ (reads member mem rest ends)
    have inside := (length_le_separated (List.mem_map_of_mem mem)).trans enough
    rw [renderMember, List.length_append] at inside
    exact Nat.lt_of_lt_of_le (length_encode_lt E member.1) (Nat.le_of_add_right_le inside)
  have body := readBody_separated (.inr rfl) opens read_member enough rest
  rw [Tree.render, renderMembers_eq_map, List.append_assoc, List.cons_append, readValue, bracket]
  simp only [List.singleton_append, body, Tree.readable, membersReadable_eq_all]
  split <;> rfl

theorem length_render_array (items : List Tree) :
    ((Tree.array items).render E).length = (separated (items.map (Tree.render E))).length + 2 := by
  rw [Tree.render, renderItems_eq_map, List.cons_append, List.length_cons, List.length_append,
    List.length_singleton]

theorem length_render_object (members : List (String × Tree)) :
    ((Tree.object members).render E).length =
      (separated (members.map (renderMember E))).length + 2 := by
  rw [Tree.render, renderMembers_eq_map, List.cons_append, List.length_cons, List.length_append,
    List.length_singleton]

/-- The reader gives back a tree from its text when its strings are readable, and refuses
the text otherwise. -/
theorem readValue_render (tree : Tree) {fuel : Nat} {rest : List Char}
    (enough : (tree.render E).length ≤ fuel) (ends : Ends rest) :
    readValue (fuel + 1) (tree.render E ++ rest) =
      if tree.readable E then some (tree, rest) else none := by
  induction tree using Tree.induction generalizing fuel rest with
  | null => rfl
  | bool b => cases b <;> rfl
  | number literal valid => exact readValue_number literal valid fuel ends
  | string s => exact readValue_string E s enough rest
  | array items ih =>
      rw [length_render_array] at enough
      cases fuel with
      | zero => cases enough
      | succ fuel =>
          apply readValue_array E _ (by omega)
          intro item mem rest ends
          have inside := length_le_separated (List.mem_map_of_mem (f := Tree.render E) mem)
          exact ih item mem (inside.trans (by omega)) ends
  | object members ih =>
      rw [length_render_object] at enough
      cases fuel with
      | zero => cases enough
      | succ fuel =>
          apply readValue_object E _ (by omega)
          intro member mem rest ends
          have inside := length_le_separated (List.mem_map_of_mem (f := renderMember E) mem)
          have value : (member.2.render E).length ≤ (renderMember E member).length := by
            rw [renderMember, List.length_append, List.length_cons]
            omega
          exact ih member mem (value.trans (inside.trans (by omega))) ends

/-- A written tree is decoded exactly when its strings are readable. -/
theorem decode_render (tree : Tree) :
    decode (tree.render E) = if tree.readable E then some tree else none := by
  have read := readValue_render E tree (Nat.le_refl _) ends_nil
  rw [List.append_nil] at read
  rw [decode, read]
  by_cases readable : tree.readable E = true
  · rw [if_pos readable, if_pos readable]
    rfl
  · rw [if_neg readable, if_neg readable]

/-! ## Texts of one line -/

theorem mem_separated {c : Char} {texts : List (List Char)} (mem : c ∈ separated texts) :
    c = ',' ∨ ∃ text ∈ texts, c ∈ text := by
  fun_induction separated texts with
  | case1 => cases mem
  | case2 text => exact .inr ⟨text, List.mem_cons_self, mem⟩
  | case3 text next rest ih =>
      rcases List.mem_append.mp mem with first | behind
      · exact .inr ⟨text, List.mem_cons_self, first⟩
      · rcases List.mem_cons.mp behind with comma | later
        · exact .inl comma
        · rcases ih later with comma | ⟨text, text_mem, inside⟩
          · exact .inl comma
          · exact .inr ⟨text, List.mem_cons_of_mem _ text_mem, inside⟩

/-- Texts of one line are one line between brackets. -/
theorem newline_not_mem_brackets {texts : List (List Char)} (each : ∀ text ∈ texts, '\n' ∉ text)
    {first last : Char} (opening : first ≠ '\n') (closing : last ≠ '\n') :
    '\n' ∉ first :: separated texts ++ [last] := by
  rw [List.cons_append, List.mem_cons, List.mem_append, List.mem_singleton]
  rintro (same | inside | same)
  · exact opening same.symm
  · rcases mem_separated inside with comma | ⟨text, mem, here⟩
    · cases comma
    · exact each text mem here
  · exact closing same.symm

/-- A tree is written on one line when the strings in it are. -/
theorem newline_not_mem_render (oneLine : ∀ s, '\n' ∉ E.encode s) (tree : Tree) :
    '\n' ∉ tree.render E := by
  have quoted : ∀ s, '\n' ∉ E.quote s := by
    intro s
    simp [Encoder.quote, oneLine]
  induction tree using Tree.induction with
  | null =>
      rw [Tree.render]
      decide
  | bool b =>
      rw [Tree.render]
      cases b <;> decide
  | number literal valid =>
      intro mem
      exact absurd (isNumeric_of_isNumeral valid '\n' mem) (by decide)
  | string s => exact quoted s
  | array items ih =>
      rw [Tree.render, renderItems_eq_map]
      apply newline_not_mem_brackets _ (by decide) (by decide)
      intro text mem
      rcases List.mem_map.mp mem with ⟨item, item_mem, rfl⟩
      exact ih item item_mem
  | object members ih =>
      rw [Tree.render, renderMembers_eq_map]
      apply newline_not_mem_brackets _ (by decide) (by decide)
      intro text mem
      rcases List.mem_map.mp mem with ⟨member, member_mem, rfl⟩
      rw [renderMember, List.mem_append, List.mem_cons]
      rintro (name | colon | value)
      · exact quoted member.1 name
      · cases colon
      · exact ih member member_mem value

end Trees

end Parq.Json
