import TupleSync.Json.Printer
import TupleSync.Json.Reader
import TupleSync.Proofs.Json.Numeral
import TupleSync.Proofs.Json.Quoted

/-!
# The compact text of a value has the value's outline

**What is printed is read back with nothing lost and nothing left over**: the outline of the compact text
of a value is the value's own, so a reader meets the value itself and no fault. That holds of every value
whose numbers are whole and of 64 bits; no other is ever printed here.

The proof follows the builder and not the text. `resume` is where a value leaves the builder that was
asked for one, whatever containers it stands in and whatever follows it, and the induction is over the
value: its items and members are values that leave the builder inside one more container.
-/

set_option autoImplicit false

namespace TupleSync.Json

/-! ## Outlines of values -/

mutual

/-- The outline of a value. -/
def outline : Json → Outline
  | .null => .scalar .null
  | .bool b => .scalar (.bool b)
  | .number n => .scalar (.number (.ok n))
  | .text s => .text (.ok s)
  | .array items => .array (itemOutlines items) none
  | .object members => .object (memberOutlines members) none

def itemOutlines : List Json → List Outline
  | [] => []
  | v :: rest => outline v :: itemOutlines rest

def memberOutlines : List (String × Json) → List (Except Fault String × Outline)
  | [] => []
  | (key, v) :: rest => (.ok key, outline v) :: memberOutlines rest

end

/-- A whole number whose digits fit into 64 bits. -/
def Number.Fits : Number → Prop
  | .whole n => n.natAbs < UInt64.size
  | .decimal _ => False

mutual

/-- All numbers in the value are whole and fit into 64 bits. -/
def Integral : Json → Prop
  | .null => True
  | .bool _ => True
  | .number n => n.Fits
  | .text _ => True
  | .array items => ItemsIntegral items
  | .object members => MembersIntegral members

def ItemsIntegral : List Json → Prop
  | [] => True
  | v :: rest => Integral v ∧ ItemsIntegral rest

def MembersIntegral : List (String × Json) → Prop
  | [] => True
  | (_, v) :: rest => Integral v ∧ MembersIntegral rest

end

theorem memberOutlines_append (ms ms' : List (String × Json)) :
    memberOutlines (ms ++ ms') = memberOutlines ms ++ memberOutlines ms' := by
  induction ms with
  | nil => rfl
  | cons m ms ih => exact congrArg (_ :: ·) ih

theorem MembersIntegral.append {ms ms' : List (String × Json)} (h : MembersIntegral ms)
    (h' : MembersIntegral ms') : MembersIntegral (ms ++ ms') := by
  induction ms with
  | nil => exact h'
  | cons m ms ih => exact ⟨h.1, ih h.2⟩

/-! ## Tokens -/

namespace Token

theorem ofBytes_cons {b : UInt8} (h : isBlank b = false) (rest : List UInt8) :
    ofBytes (b :: rest) = (next b rest).1 :: ofBytes (next b rest).2 := by
  rw [ofBytes, h]
  rfl

/-- A byte that is a token by itself. -/
theorem ofBytes_mark {b : UInt8} {t : Token} (hnext : ∀ rest, next b rest = (t, rest))
    (hb : isBlank b = false) (rest : List UInt8) : ofBytes (b :: rest) = t :: ofBytes rest := by
  rw [ofBytes_cons hb, hnext]

theorem afterWord_append (word rest : List UInt8) : afterWord word (word ++ rest) = .ok rest := by
  induction word with
  | nil => rfl
  | cons b word ih =>
    rw [List.cons_append, afterWord, if_pos rfl]
    exact ih

/-- A byte that starts a number starts nothing else. -/
theorem next_of_number {b : UInt8} (h : (b == 45 || Numeral.isDigit b) = true) (rest : List UInt8) :
    next b rest =
      match Numeral.cut (b :: rest) with
      | .closed l rest => (.scalar (.number l.number), rest)
      | .stopped read skipped => (.brokenScalar read skipped, []) := by
  unfold next
  split
  case h_11 => exact if_pos h
  all_goals exact absurd h (by decide)

/-- A word that stands for a scalar. -/
theorem ofBytes_word {b : UInt8} {letters : List UInt8} {x : Scalar}
    (hnext : ∀ rest, next b rest = word x letters rest) (hb : isBlank b = false) (rest : List UInt8) :
    ofBytes (b :: letters ++ rest) = .scalar x :: ofBytes rest := by
  rw [List.cons_append, ofBytes_cons hb, hnext, word, afterWord_append]

theorem ofBytes_null (rest : List UInt8) :
    ofBytes ([110, 117, 108, 108] ++ rest) = .scalar .null :: ofBytes rest :=
  ofBytes_word (fun _ => rfl) rfl rest

theorem ofBytes_true (rest : List UInt8) :
    ofBytes ([116, 114, 117, 101] ++ rest) = .scalar (.bool true) :: ofBytes rest :=
  ofBytes_word (fun _ => rfl) rfl rest

theorem ofBytes_false (rest : List UInt8) :
    ofBytes ([102, 97, 108, 115, 101] ++ rest) = .scalar (.bool false) :: ofBytes rest :=
  ofBytes_word (fun _ => rfl) rfl rest

theorem ofBytes_quoted (s : String) (rest : List UInt8) :
    ofBytes (Quoted.quoted s ++ rest) = .text (.ok s) :: ofBytes rest := by
  have hnext : next 34 (s.toList.flatMap Quoted.escaped ++ 34 :: rest) = (.text (.ok s), rest) := by
    rw [next, Quoted.cut_escaped]
    exact congrArg (fun t => (Token.text t, rest)) (Quoted.text_pieces s)
  rw [Quoted.quoted, List.cons_append, List.append_assoc, ofBytes_cons (by decide)]
  show (next 34 (s.toList.flatMap Quoted.escaped ++ 34 :: rest)).1 :: ofBytes _ = _
  rw [List.singleton_append, hnext]

/-- A whole number starts with its sign or with a digit. -/
theorem exists_ofInt_eq_cons (n : Int) :
    ∃ b bs, Numeral.ofInt n = b :: bs ∧ (b == 45 || Numeral.isDigit b) = true := by
  unfold Numeral.ofInt
  split
  · exact ⟨45, _, rfl, rfl⟩
  · cases hdigits : Numeral.digits n.natAbs with
    | nil => exact absurd hdigits (Numeral.digits_ne_nil _)
    | cons b bs =>
      have hb : Numeral.isDigit b = true := by
        apply Numeral.isDigit_of_mem_digits (n := n.natAbs)
        rw [hdigits]
        exact List.mem_cons_self
      exact ⟨b, bs, rfl, by rw [hb, Bool.or_true]⟩

theorem isBlank_of_number {b : UInt8} (h : (b == 45 || Numeral.isDigit b) = true) :
    isBlank b = false := by
  rw [Bool.or_eq_true, beq_iff_eq, Numeral.isDigit_iff] at h
  rcases h with rfl | h
  · rfl
  · have hne : ∀ k : UInt8, k.toNat < 48 → (b == k) = false := by
      intro k hk
      rw [beq_eq_false_iff_ne]
      rintro rfl
      omega
    simp [isBlank, hne]

theorem ofBytes_ofInt {n : Int} (hfits : n.natAbs < UInt64.size) {rest : List UInt8}
    (hrest : ∀ b ∈ rest.head?, Numeral.EndsNumber b) :
    ofBytes (Numeral.ofInt n ++ rest) = .scalar (.number (.ok (.whole n))) :: ofBytes rest := by
  obtain ⟨b, bs, hn, hb⟩ := exists_ofInt_eq_cons n
  have hcut := Numeral.cut_ofInt n hrest
  rw [hn, List.cons_append] at hcut
  rw [hn, List.cons_append, ofBytes_cons (isBlank_of_number hb), next_of_number hb, hcut]
  simp only [Numeral.number_ofInt hfits]

end Token

/-! ## Building -/

namespace Outline

/-- The text after a value that was wanted inside these containers. -/
def resume (v : Outline) : List Frame → List Token → Document
  | [], ts => ⟨v, !ts.isEmpty⟩
  | frame :: outer, ts => build ts (frame.push v :: outer) .commaOrClose

theorem build_of_give {stack outer : List Frame} {want : Want} {t : Token} {v : Outline}
    (h : step stack want t = .give v outer) (ts : List Token) :
    build (t :: ts) stack want = resume v outer ts := by
  rw [build, h]
  cases outer with
  | nil => rfl
  | cons frame outer => rfl

theorem build_of_go {stack stack' : List Frame} {want want' : Want} {t : Token}
    (h : step stack want t = .go stack' want') (ts : List Token) :
    build (t :: ts) stack want = build ts stack' want' := by
  rw [build, h]

/-- A value may start here. -/
def Want.StartsValue (want : Want) : Prop := want = .value ∨ want = .valueOrClose

theorem step_of_startsValue {stack : List Frame} {want : Want} (h : want.StartsValue) {t : Token}
    (ht : t ≠ .closeArray) : step stack want t = startValue stack t := by
  rcases h with rfl | rfl
  · rfl
  · unfold step
    split <;> simp_all

section Start

variable {stack : List Frame} {want : Want} (h : want.StartsValue)

include h

theorem build_scalar (s : Scalar) (ts : List Token) :
    build (.scalar s :: ts) stack want = resume (.scalar s) stack ts :=
  build_of_give (step_of_startsValue h (t := .scalar s) nofun) ts

theorem build_text (x : Except Fault String) (ts : List Token) :
    build (.text x :: ts) stack want = resume (.text x) stack ts :=
  build_of_give (step_of_startsValue h (t := .text x) nofun) ts

theorem build_openArray (ts : List Token) :
    build (.openArray :: ts) stack want = build ts (.items [] :: stack) .valueOrClose :=
  build_of_go (step_of_startsValue h (t := .openArray) nofun) ts

theorem build_openObject (ts : List Token) :
    build (.openObject :: ts) stack want = build ts (.members [] :: stack) .keyOrClose :=
  build_of_go (step_of_startsValue h (t := .openObject) nofun) ts

end Start

end Outline

theorem commaSeparated_cons (t : List UInt8) (ts : List (List UInt8)) :
    commaSeparated (t :: ts) = t ++ ts.flatMap (44 :: ·) := by
  induction ts generalizing t with
  | nil => simp [commaSeparated]
  | cons t' ts ih =>
    show t ++ 44 :: commaSeparated (t' :: ts) = _
    rw [ih, List.flatMap_cons, List.cons_append]

open Outline Token

/-- What follows a value inside an array or an object belongs to no number. -/
theorem endsNumber_head {ts : List (List UInt8)} {b : UInt8} (hb : Numeral.EndsNumber b)
    {rest : List UInt8} : ∀ c ∈ (ts.flatMap (44 :: ·) ++ b :: rest).head?, Numeral.EndsNumber c := by
  cases ts with
  | nil => simpa using hb
  | cons t ts =>
    intro c hc
    obtain rfl : 44 = c := Option.some.inj hc
    decide

/-- A key may start here. -/
def Outline.Want.StartsKey (want : Want) : Prop := want = .key ∨ want = .keyOrClose

/-- A key and its value make one member more, if the value is built where it stands. -/
theorem build_member (key : String) {value rest : List UInt8} {v : Outline}
    {done : List (Except Fault String × Outline)} {stack : List Frame} {want : Want}
    (hwant : want.StartsKey)
    (hv : build (Token.ofBytes (value ++ rest)) (.member done (.ok key) :: stack) .value =
      resume v (.member done (.ok key) :: stack) (Token.ofBytes rest)) :
    build (Token.ofBytes (Quoted.quoted key ++ (58 :: value ++ rest))) (.members done :: stack) want =
      build (Token.ofBytes rest) (.members ((.ok key, v) :: done) :: stack) .commaOrClose := by
  have hkey : step (.members done :: stack) want (.text (.ok key)) =
      .go (.member done (.ok key) :: stack) .colon := by
    rcases hwant with rfl | rfl
    · rfl
    · rfl
  rw [ofBytes_quoted, build_of_go hkey, List.cons_append,
    ofBytes_mark (t := .colon) (fun _ => rfl) rfl]
  exact (build_of_go rfl _).trans hv

mutual

/-- **A printed value leaves the builder as its own outline.** -/
theorem build_bytes (v : Json) (h : v.Integral) {rest : List UInt8}
    (hrest : ∀ b ∈ rest.head?, Numeral.EndsNumber b) {stack : List Frame} {want : Want}
    (hwant : want.StartsValue) :
    build (Token.ofBytes (v.bytes ++ rest)) stack want = resume v.outline stack (Token.ofBytes rest) := by
  match v with
  | .null =>
    rw [bytes, ofBytes_null]
    exact build_scalar hwant _ _
  | .bool true =>
    rw [bytes, ofBytes_true]
    exact build_scalar hwant _ _
  | .bool false =>
    rw [bytes, ofBytes_false]
    exact build_scalar hwant _ _
  | .number (.whole n) =>
    rw [bytes, Number.bytes, ofBytes_ofInt h hrest]
    exact build_scalar hwant _ _
  | .text s =>
    rw [bytes, ofBytes_quoted]
    exact build_text hwant _ _
  | .array items =>
    rw [bytes, List.cons_append, List.append_assoc, List.singleton_append,
      ofBytes_mark (t := .openArray) (fun _ => rfl) rfl, build_openArray hwant]
    exact build_items items h rest
  | .object members =>
    rw [bytes, List.cons_append, List.append_assoc, List.singleton_append,
      ofBytes_mark (t := .openObject) (fun _ => rfl) rfl, build_openObject hwant]
    exact build_members members h rest

/-- The items of an array, up to its end. -/
theorem build_items (items : List Json) (h : ItemsIntegral items) (rest : List UInt8)
    {stack : List Frame} :
    build (Token.ofBytes (commaSeparated (itemTexts items) ++ 93 :: rest)) (.items [] :: stack)
        .valueOrClose =
      resume (.array (itemOutlines items) none) stack (Token.ofBytes rest) := by
  match items with
  | [] =>
    rw [itemTexts, commaSeparated, List.nil_append,
      ofBytes_mark (t := .closeArray) (fun _ => rfl) rfl]
    exact build_of_give rfl _
  | v :: items =>
    -- a comma or the closing bracket comes next, and neither goes on with a number
    rw [itemTexts, commaSeparated_cons, List.append_assoc,
      build_bytes v h.1 (endsNumber_head (by decide)) (Or.inr rfl)]
    exact build_moreItems items h.2 rest [v.outline]

/-- The items of an array after the first one. -/
theorem build_moreItems (items : List Json) (h : ItemsIntegral items) (rest : List UInt8)
    (done : List Outline) {stack : List Frame} :
    build (Token.ofBytes ((itemTexts items).flatMap (44 :: ·) ++ 93 :: rest)) (.items done :: stack)
        .commaOrClose =
      resume (.array (done.reverse ++ itemOutlines items) none) stack (Token.ofBytes rest) := by
  match items with
  | [] =>
    rw [itemTexts, List.flatMap_nil, List.nil_append,
      ofBytes_mark (t := .closeArray) (fun _ => rfl) rfl, itemOutlines, List.append_nil]
    exact build_of_give rfl _
  | v :: items =>
    rw [itemTexts, List.flatMap_cons, List.cons_append, List.cons_append, List.append_assoc,
      ofBytes_mark (t := .comma) (fun _ => rfl) rfl]
    refine (build_of_go rfl _).trans ?_
    rw [build_bytes v h.1 (endsNumber_head (by decide)) (Or.inl rfl)]
    refine (build_moreItems items h.2 rest (v.outline :: done)).trans ?_
    rw [List.reverse_cons, List.append_assoc]
    rfl

/-- The members of an object, up to its end. -/
theorem build_members (members : List (String × Json)) (h : MembersIntegral members)
    (rest : List UInt8) {stack : List Frame} :
    build (Token.ofBytes (commaSeparated (memberTexts members) ++ 125 :: rest))
        (.members [] :: stack) .keyOrClose =
      resume (.object (memberOutlines members) none) stack (Token.ofBytes rest) := by
  match members with
  | [] =>
    rw [memberTexts, commaSeparated, List.nil_append,
      ofBytes_mark (t := .closeObject) (fun _ => rfl) rfl]
    exact build_of_give rfl _
  | (key, v) :: members =>
    rw [memberTexts, commaSeparated_cons, List.append_assoc, List.append_assoc]
    refine (build_member key (Or.inr rfl)
      (build_bytes v h.1 (endsNumber_head (by decide)) (Or.inl rfl))).trans ?_
    exact build_moreMembers members h.2 rest [(.ok key, v.outline)]

/-- The members of an object after the first one. -/
theorem build_moreMembers (members : List (String × Json)) (h : MembersIntegral members)
    (rest : List UInt8) (done : List (Except Fault String × Outline)) {stack : List Frame} :
    build (Token.ofBytes ((memberTexts members).flatMap (44 :: ·) ++ 125 :: rest))
        (.members done :: stack) .commaOrClose =
      resume (.object (done.reverse ++ memberOutlines members) none) stack (Token.ofBytes rest) := by
  match members with
  | [] =>
    rw [memberTexts, List.flatMap_nil, List.nil_append,
      ofBytes_mark (t := .closeObject) (fun _ => rfl) rfl, memberOutlines, List.append_nil]
    exact build_of_give rfl _
  | (key, v) :: members =>
    rw [memberTexts, List.flatMap_cons, List.cons_append, List.cons_append, List.append_assoc,
      List.append_assoc, ofBytes_mark (t := .comma) (fun _ => rfl) rfl]
    refine (build_of_go rfl _).trans ?_
    refine (build_member key (Or.inl rfl)
      (build_bytes v h.1 (endsNumber_head (by decide)) (Or.inl rfl))).trans ?_
    refine (build_moreMembers members h.2 rest ((.ok key, v.outline) :: done)).trans ?_
    rw [List.reverse_cons, List.append_assoc]
    rfl

end

/-- **The compact text of a value has the value's outline, and nothing follows it.** -/
theorem ofBytes_bytes {v : Json} (h : v.Integral) :
    Document.ofBytes v.bytes = ⟨v.outline, false⟩ := by
  have hbuild : build (Token.ofBytes (v.bytes ++ [])) [] .value =
      resume v.outline [] (Token.ofBytes []) :=
    build_bytes v h (by simp) (Or.inl rfl)
  rw [List.append_nil] at hbuild
  rw [Document.ofBytes, hbuild, Token.ofBytes]
  rfl

/-- What is printed is read as the value itself. -/
theorem decode_bytes {α : Type} (r : Reader α) {v : Json} (h : v.Integral) :
    decode r v.bytes = r Document.maxDepth v.outline := by
  rw [decode, ofBytes_bytes h, Document.read]
  cases r Document.maxDepth v.outline <;> rfl

end TupleSync.Json
