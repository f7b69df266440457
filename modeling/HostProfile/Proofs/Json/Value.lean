import HostProfile.Proofs.Json.Text

/-!
# Reading written values

A value is read from its text whatever follows, as long as no number goes on there. Only a number
that is kept as its text could have been written like another value, and no stored form holds one.
-/

namespace HostProfile.Json

/-- Holds no number that is kept as its text. -/
inductive Exact : Json → Prop where
  | null : Exact null
  | bool (b : Bool) : Exact (bool b)
  | int (n : Int) : Exact (int n)
  | str (s : String) : Exact (str s)
  | arr {elements : List Json} (all : ∀ e ∈ elements, Exact e) : Exact (arr elements)
  | obj {members : List (String × Json)} (all : ∀ m ∈ members, Exact m.2) : Exact (obj members)

theorem renderElements_eq (elements : List Json) :
    renderElements elements = elements.map render := by
  induction elements with
  | nil => rfl
  | cons e rest ih => rw [renderElements, ih, List.map_cons]

/-- The text of a member of an object. -/
def renderMember (m : String × Json) : String := quote m.1 ++ ":" ++ m.2.render

theorem toList_renderMember_append (m : String × Json) (rest : List Char) :
    (renderMember m).toList ++ rest =
      '"' :: (m.1.toList.flatMap escape ++ '"' :: ':' :: (m.2.render.toList ++ rest)) := by
  simp [renderMember, quote]

theorem renderMembers_eq (members : List (String × Json)) :
    renderMembers members = members.map renderMember := by
  induction members with
  | nil => rfl
  | cons m rest ih => rw [renderMembers, ih, List.map_cons, renderMember]

/-- The characters of texts between commas. -/
def commaSeparated (texts : List String) : List Char := (",".intercalate texts).toList

theorem commaSeparated_singleton (text : String) : commaSeparated [text] = text.toList := by
  simp [commaSeparated]

theorem commaSeparated_cons_cons (first second : String) (texts : List String) :
    commaSeparated (first :: second :: texts) =
      first.toList ++ ',' :: commaSeparated (second :: texts) := by
  simp [commaSeparated]

theorem exists_commaSeparated_cons (first : String) (texts : List String) :
    ∃ tail, commaSeparated (first :: texts) = first.toList ++ tail := by
  cases texts with
  | nil => exact ⟨[], by rw [commaSeparated_singleton, List.append_nil]⟩
  | cons second texts => exact ⟨_, commaSeparated_cons_cons first second texts⟩

theorem toList_render_arr (elements : List Json) :
    (arr elements).render.toList = '[' :: (commaSeparated (elements.map render) ++ [']']) := by
  simp [render, renderElements_eq, commaSeparated]

theorem toList_render_obj (members : List (String × Json)) :
    (obj members).render.toList =
      '\x7b' :: (commaSeparated (members.map renderMember) ++ ['\x7d']) := by
  simp [render, renderMembers_eq, commaSeparated]

end HostProfile.Json

namespace HostProfile.Json.Reader

variable {acc : List Json} {fields : List (String × Json)} {cs inside more rest : List Char}
  {v : Json} {es : List Json} {ms : List (String × Json)} {name s : String}

/-- A value is read at the front, up to `rest`. -/
def Reads (cs : List Char) (v : Json) (rest : List Char) : Prop :=
  ∃ shorter, value cs = some (v, ⟨rest, shorter⟩)

/-- Elements are read up to the end of their array, behind the elements `acc`. -/
def ReadsElements (acc : List Json) (cs : List Char) (es : List Json) (rest : List Char) : Prop :=
  ∀ n h, ∃ shorter, elements n acc cs h = some (.arr (acc.reverse ++ es), ⟨rest, shorter⟩)

/-- Members are read up to the end of their object, behind the members `acc`. -/
def ReadsMembers (acc : List (String × Json)) (cs : List Char) (ms : List (String × Json))
    (rest : List Char) : Prop :=
  ∀ n h, ∃ shorter, members n acc cs h = some (.obj (acc.reverse ++ ms), ⟨rest, shorter⟩)

theorem skipSpace_of_stops (stops : Stops isSpace cs) : skipSpace cs = cs := by
  have dropped := dropWhile_run (List.forall_mem_nil _) stops
  rwa [List.nil_append] at dropped

theorem skipSpace_cons {c : Char} (other : isSpace c = false) (rest : List Char) :
    skipSpace (c :: rest) = c :: rest := skipSpace_of_stops (stops_cons other rest)

/-- Reads a value from its first character on. -/
def valueFrom (c : Char) (rest : List Char) : Option (Json × Below (c :: rest).length) :=
  if c == '"' then
    match hs : stringTail? [] rest with
    | some (s, after) => some (.str s, ⟨after, Nat.lt_succ_of_lt (length_lt_of_stringTail? hs)⟩)
    | none => none
  else if c == '[' then
    match h : skipSpace rest with
    | ']' :: after => some (.arr [], ⟨after, Nat.lt_succ_of_lt (length_lt_of_skipSpace h)⟩)
    | _ => elements (c :: rest).length [] rest (Nat.lt_succ_self _)
  else if c == '\x7b' then
    match h : skipSpace rest with
    | '\x7d' :: after => some (.obj [], ⟨after, Nat.lt_succ_of_lt (length_lt_of_skipSpace h)⟩)
    | _ => members (c :: rest).length [] rest (Nat.lt_succ_self _)
  else
    match hv : scalar? (c :: rest) with
    | some (v, after) => some (v, ⟨after, length_lt_of_scalar? hv⟩)
    | none => none

theorem value_cons {c : Char} (other : isSpace c = false) (rest : List Char) :
    value (c :: rest) = valueFrom c rest := by
  have here := skipSpace_cons other rest
  rw [value]
  split
  · next missing => cases here.symm.trans missing
  · next found =>
      cases here.symm.trans found
      rfl

/-! ## Values without parts -/

theorem reads_string (string : stringTail? [] inside = some (s, rest)) :
    Reads ('"' :: inside) (.str s) rest := by
  refine ⟨Nat.lt_succ_of_lt (length_lt_of_stringTail? string), ?_⟩
  rw [value_cons (by decide), valueFrom, if_pos (by decide)]
  split
  · next read =>
      cases string.symm.trans read
      rfl
  · next missing => simp [string] at missing

/-- Begins a string, an array or an object, or is a space. -/
def isOpening (c : Char) : Bool := c == '"' || c == '[' || c == '\x7b' || isSpace c

theorem reads_scalar (stops : Stops isOpening cs) (scalar : scalar? cs = some (v, rest)) :
    Reads cs v rest := by
  refine ⟨length_lt_of_scalar? scalar, ?_⟩
  cases cs with
  | nil => cases scalar
  | cons c cs =>
      have other := stops c rfl
      simp only [isOpening, Bool.or_eq_false_iff] at other
      rw [value_cons other.2, valueFrom]
      simp only [other, Bool.false_eq_true, if_false]
      split
      · next read =>
          cases scalar.symm.trans read
          rfl
      · next missing => simp [scalar] at missing

/-! ## Arrays -/

theorem reads_empty_array (rest : List Char) : Reads ('[' :: ']' :: rest) (.arr []) rest := by
  refine ⟨by simp only [List.length_cons]; omega, ?_⟩
  rw [value_cons (by decide), valueFrom, if_neg (by decide), if_pos (by decide)]
  split
  · next closed =>
      cases (skipSpace_cons (by decide) rest).symm.trans closed
      rfl
  · next other => exact absurd (skipSpace_cons (by decide) rest) (other rest)

theorem reads_array (first : Stops (fun c => c == ']' || isSpace c) inside)
    (read : ReadsElements [] inside es rest) : Reads ('[' :: inside) (.arr es) rest := by
  obtain ⟨shorter, eq⟩ := read ('[' :: inside).length (Nat.lt_succ_self _)
  refine ⟨shorter, ?_⟩
  have here := skipSpace_of_stops (first.mono fun c space => by simp [space])
  rw [value_cons (by decide), valueFrom, if_neg (by decide), if_pos (by decide)]
  split
  · next closed =>
      cases here.symm.trans closed
      exact absurd (first ']' rfl) (by decide)
  · exact eq

theorem readsElements_last (read : Reads cs v (']' :: rest)) : ReadsElements acc cs [v] rest := by
  obtain ⟨shorter, eq⟩ := read
  intro n h
  refine ⟨by simp only [List.length_cons] at shorter; omega, ?_⟩
  have closing := skipSpace_cons (c := ']') (by decide) rest
  rw [elements, eq]
  simp only [Option.bind_eq_bind, Option.bind_some]
  split
  · next comma => cases closing.symm.trans comma
  · next closed =>
      cases closing.symm.trans closed
      rw [List.reverse_cons]
      rfl
  · next other => exact absurd closing (other rest)

theorem readsElements_cons (read : Reads cs v (',' :: more))
    (others : ReadsElements (v :: acc) more es rest) : ReadsElements acc cs (v :: es) rest := by
  obtain ⟨shorter, eq⟩ := read
  intro n h
  obtain ⟨shorter', eq'⟩ := others n (by simp only [List.length_cons] at shorter; omega)
  refine ⟨shorter', ?_⟩
  have goes_on := skipSpace_cons (c := ',') (by decide) more
  rw [elements, eq]
  simp only [Option.bind_eq_bind, Option.bind_some]
  split
  · next comma =>
      cases goes_on.symm.trans comma
      rw [eq', List.reverse_cons, List.append_assoc, List.singleton_append]
  · next closed => cases goes_on.symm.trans closed
  · next other _ => exact absurd goes_on (other more)

/-! ## Objects -/

theorem reads_empty_object (rest : List Char) :
    Reads ('\x7b' :: '\x7d' :: rest) (.obj []) rest := by
  refine ⟨by simp only [List.length_cons]; omega, ?_⟩
  rw [value_cons (by decide), valueFrom, if_neg (by decide), if_neg (by decide), if_pos (by decide)]
  split
  · next closed =>
      cases (skipSpace_cons (by decide) rest).symm.trans closed
      rfl
  · next other => exact absurd (skipSpace_cons (by decide) rest) (other rest)

theorem reads_object (read : ReadsMembers [] ('"' :: inside) ms rest) :
    Reads ('\x7b' :: '"' :: inside) (.obj ms) rest := by
  obtain ⟨shorter, eq⟩ := read ('\x7b' :: '"' :: inside).length (Nat.lt_succ_self _)
  refine ⟨shorter, ?_⟩
  rw [value_cons (by decide), valueFrom, if_neg (by decide), if_neg (by decide), if_pos (by decide)]
  split
  · next closed => cases (skipSpace_cons (by decide) inside).symm.trans closed
  · exact eq

/-- Reads on behind a member: further members, or the end of the object. -/
def afterMember (n : Nat) (fields : List (String × Json)) (cs : List Char) (h : cs.length < n) :
    Option (Json × Below n) :=
  match h' : skipSpace cs with
  | ',' :: more => members n fields more (Nat.lt_trans (length_lt_of_skipSpace h') h)
  | '\x7d' :: rest =>
    some (.obj fields.reverse, ⟨rest, Nat.lt_trans (length_lt_of_skipSpace h') h⟩)
  | _ => none

theorem members_eq (string : stringTail? [] inside = some (name, ':' :: cs))
    (read : Reads cs v more) (n : Nat) (h : ('"' :: inside).length < n) :
    ∃ shorter, members n fields ('"' :: inside) h =
      afterMember n ((name, v) :: fields) more shorter := by
  obtain ⟨shorter, eq⟩ := read
  have named := length_lt_of_stringTail? string
  refine ⟨by simp only [List.length_cons] at named h; omega, ?_⟩
  have opening := skipSpace_cons (c := '"') (by decide) inside
  have colon := skipSpace_cons (c := ':') (by decide) cs
  rw [members]
  split
  · next found =>
      cases opening.symm.trans found
      split
      · next found =>
          cases string.symm.trans found
          split
          · next found =>
              cases colon.symm.trans found
              rw [eq]
              rfl
          · next other => exact absurd colon (other cs)
      · next missing => simp [string] at missing
  · next other => exact absurd opening (other inside)

theorem readsMembers_last (string : stringTail? [] inside = some (name, ':' :: cs))
    (read : Reads cs v ('\x7d' :: rest)) :
    ReadsMembers fields ('"' :: inside) [(name, v)] rest := by
  intro n h
  obtain ⟨shorter, eq⟩ := members_eq string read n h
  refine ⟨Nat.lt_of_succ_lt shorter, ?_⟩
  have closing := skipSpace_cons (c := '\x7d') (by decide) rest
  rw [eq, afterMember]
  split
  · next comma => cases closing.symm.trans comma
  · next closed =>
      cases closing.symm.trans closed
      rw [List.reverse_cons]
  · next other => exact absurd closing (other rest)

theorem readsMembers_cons (string : stringTail? [] inside = some (name, ':' :: cs))
    (read : Reads cs v (',' :: more)) (others : ReadsMembers ((name, v) :: fields) more ms rest) :
    ReadsMembers fields ('"' :: inside) ((name, v) :: ms) rest := by
  intro n h
  obtain ⟨shorter, eq⟩ := members_eq string read n h
  obtain ⟨shorter', eq'⟩ := others n (Nat.lt_of_succ_lt shorter)
  refine ⟨shorter', ?_⟩
  have goes_on := skipSpace_cons (c := ',') (by decide) more
  rw [eq, afterMember]
  split
  · next comma =>
      cases goes_on.symm.trans comma
      rw [eq', List.reverse_cons, List.append_assoc, List.singleton_append]
  · next closed => cases goes_on.symm.trans closed
  · next other _ => exact absurd goes_on (other more)

/-! ## Written values -/

/-- Whatever follows, the value is read from its text. -/
def Readable (v : Json) : Prop :=
  ∀ rest, Stops isNumberChar rest → Reads (v.render.toList ++ rest) v rest

/-- A text begins with a character that is neither a space nor a closing bracket. -/
theorem stops_render (exact : v.Exact) (rest : List Char) :
    Stops (fun c => c == ']' || isSpace c) (v.render.toList ++ rest) := by
  cases exact with
  | null => exact stops_cons (by decide) _
  | bool b => cases b <;> exact stops_cons (by decide) _
  | int n =>
      refine stops_toString n (by decide) (fun c passes => ?_) rest
      simp only [isSpace, Bool.or_eq_true, beq_iff_eq] at passes
      obtain rfl | ((rfl | rfl) | rfl) | rfl := passes <;> decide
  | str s =>
      rw [render, toList_quote, List.cons_append, List.append_assoc]
      exact stops_cons (by decide) _
  | arr all =>
      rw [toList_render_arr, List.cons_append, List.append_assoc]
      exact stops_cons (by decide) _
  | obj all =>
      rw [toList_render_obj, List.cons_append, List.append_assoc]
      exact stops_cons (by decide) _

theorem readable_null : Readable .null := fun rest _ =>
  reads_scalar (stops_cons (by decide) _) rfl

theorem readable_bool (b : Bool) : Readable (.bool b) := fun rest _ => by
  cases b <;> exact reads_scalar (stops_cons (by decide) _) rfl

theorem readable_str (s : String) : Readable (.str s) := fun rest _ => by
  rw [render, toList_quote, List.cons_append, List.append_assoc]
  exact reads_string (stringTail?_escaped s rest)

theorem readable_int (n : Int) : Readable (.int n) := fun rest stops => by
  refine reads_scalar (stops_toString n (by decide) (fun c passes => ?_) rest)
    (scalar?_toString n stops)
  simp only [isOpening, isSpace, Bool.or_eq_true, beq_iff_eq] at passes
  obtain ((rfl | rfl) | rfl) | ((rfl | rfl) | rfl) | rfl := passes <;> decide

theorem readsElements_render {es : List Json} (some_elements : es ≠ [])
    (readable : ∀ e ∈ es, Readable e) (acc : List Json) (rest : List Char) :
    ReadsElements acc (commaSeparated (es.map render) ++ ']' :: rest) es rest := by
  induction es generalizing acc with
  | nil => exact absurd rfl some_elements
  | cons e others ih =>
      have first := readable e List.mem_cons_self
      cases others with
      | nil =>
          rw [List.map_singleton, commaSeparated_singleton]
          exact readsElements_last (first _ (stops_cons (by decide) rest))
      | cons second others =>
          rw [List.map_cons, List.map_cons, commaSeparated_cons_cons, List.append_assoc,
            List.cons_append]
          refine readsElements_cons (first _ (stops_cons (by decide) _)) ?_
          exact ih (List.cons_ne_nil _ _)
            (fun e member => readable e (List.mem_cons_of_mem _ member)) (e :: acc)

theorem readsMembers_render {ms : List (String × Json)} (some_members : ms ≠ [])
    (readable : ∀ m ∈ ms, Readable m.2) (fields : List (String × Json)) (rest : List Char) :
    ReadsMembers fields (commaSeparated (ms.map renderMember) ++ '\x7d' :: rest) ms rest := by
  induction ms generalizing fields with
  | nil => exact absurd rfl some_members
  | cons m others ih =>
      have first := readable m List.mem_cons_self
      cases others with
      | nil =>
          rw [List.map_singleton, commaSeparated_singleton, toList_renderMember_append]
          exact readsMembers_last (stringTail?_escaped m.1 _)
            (first _ (stops_cons (by decide) rest))
      | cons second others =>
          rw [List.map_cons, List.map_cons, commaSeparated_cons_cons, List.append_assoc,
            List.cons_append, toList_renderMember_append]
          refine readsMembers_cons (stringTail?_escaped m.1 _)
            (first _ (stops_cons (by decide) _)) ?_
          exact ih (List.cons_ne_nil _ _)
            (fun m member => readable m (List.mem_cons_of_mem _ member)) (m :: fields)

theorem readable_of_exact (exact : v.Exact) : Readable v := by
  induction exact with
  | null => exact readable_null
  | bool b => exact readable_bool b
  | int n => exact readable_int n
  | str s => exact readable_str s
  | @arr elements all ih =>
      intro rest _
      rw [toList_render_arr, List.cons_append, List.append_assoc]
      cases elements with
      | nil => exact reads_empty_array rest
      | cons e others =>
          refine reads_array ?_ (readsElements_render (List.cons_ne_nil _ _) ih [] rest)
          obtain ⟨tail, begins⟩ := exists_commaSeparated_cons e.render (others.map render)
          rw [List.map_cons, begins, List.append_assoc]
          exact stops_render (all e List.mem_cons_self) _
  | @obj members all ih =>
      intro rest _
      rw [toList_render_obj, List.cons_append, List.append_assoc]
      cases members with
      | nil => exact reads_empty_object rest
      | cons m others =>
          have read := readsMembers_render (List.cons_ne_nil m others) ih [] rest
          obtain ⟨tail, begins⟩ :=
            exists_commaSeparated_cons (renderMember m) (others.map renderMember)
          rw [List.map_cons, begins, List.append_assoc, toList_renderMember_append] at read ⊢
          exact reads_object read

end HostProfile.Json.Reader

namespace HostProfile.Json

/-- A value is read back from its text. -/
theorem parse?_render {v : Json} (exact : v.Exact) : parse? v.render = some v := by
  have readable := Reader.readable_of_exact exact [] stops_nil
  rw [List.append_nil] at readable
  obtain ⟨shorter, read⟩ := readable
  rw [parse?, read]
  rfl

end HostProfile.Json
