import InterprocessComm.Lib.ByteMemory
import Mathlib.Data.List.TakeWhile

/-!
# C strings

Strings that end with a zero byte, in byte-addressed memory, and the functions of the C
library that read and write them.  Where a function looks for the end of a string, the
room that is left in the array bounds the search.
-/

namespace Verification

/-!
# What a range of bytes contains
-/

def Contains (m : Mem) (a : Int) (bs : List UInt8) : Prop :=
  readBytes m a bs.length = bs

section Contains

variable {m : Mem} {a b : Int} {bs cs : List UInt8}

theorem readBytes_append (m : Mem) (a : Int) (i k : Nat) :
    readBytes m a (i + k) = readBytes m a i ++ readBytes m (a + i) k := by
  unfold readBytes
  rw [List.range_add, List.map_append, List.map_map]
  congr 1
  apply List.map_congr_left
  intro j _
  simp [Int.add_assoc]

theorem contains_write (m : Mem) (a : Int) (bs : List UInt8) :
    Contains (writeBytes m a bs) a bs :=
  readBytes_writeBytes m a bs

theorem contains_append :
    Contains m a (bs ++ cs) <-> Contains m a bs ∧ Contains m (a + bs.length) cs := by
  unfold Contains
  rw [List.length_append, readBytes_append]
  constructor
  · intro h
    exact List.append_inj h (by simp)
  · rintro ⟨hbs, hcs⟩
    rw [hbs, hcs]

theorem readBytes_of_contains (h : Contains m a (bs ++ cs)) : readBytes m a bs.length = bs :=
  (contains_append.mp h).1

theorem Contains.frame (h : Contains m a bs) (hdisjoint : DisjointRanges a bs.length b cs.length) :
    Contains (writeBytes m b cs) a bs := by
  unfold Contains
  rw [readBytes_writeBytes_disjoint hdisjoint]
  exact h

theorem contains_cons {c : UInt8} :
    Contains m a (c :: bs) <-> m a = c ∧ Contains m (a + 1) bs := by
  have happend : Contains m a ([c] ++ bs) <-> Contains m a [c] ∧ Contains m (a + [c].length) bs :=
    contains_append
  simpa [Contains, readBytes] using happend

end Contains

/-!
# Reading strings
-/

/-- The string at `a`, if it ends within `room` bytes. -/
def cString (m : Mem) : Int -> Nat -> Option (List UInt8)
  | _, 0 => none
  | a, room + 1 =>
      if m a = 0 then
        some []
      else
        (cString m (a + 1) room).map (m a :: ·)

def strlen (m : Mem) (a : Int) (room : Nat) : Option Nat :=
  (cString m a room).map List.length

/-- The part of a block of bytes that a function on strings sees. -/
def beforeNul (bs : List UInt8) : List UInt8 :=
  bs.takeWhile fun b => b ≠ 0

section Reading

variable {m : Mem} {a : Int} {bs : List UInt8} {room : Nat}

theorem cString_of_contains (h : Contains m a bs) (hnul : 0 ∈ bs) (hroom : bs.length ≤ room) :
    cString m a room = some (beforeNul bs) := by
  induction bs generalizing a room with
  | nil => cases hnul
  | cons b rest ih =>
      rcases contains_cons.mp h with ⟨hb, hrest⟩
      rw [List.length_cons] at hroom
      rcases Nat.exists_eq_add_of_lt hroom with ⟨k, rfl⟩
      rw [cString, hb]
      by_cases hzero : b = 0
      · subst hzero
        rfl
      · have hmem : 0 ∈ rest := by
          rcases List.mem_cons.mp hnul with heq | hmem
          · exact absurd heq.symm hzero
          · exact hmem
        rw [if_neg hzero, ih hrest hmem (by lia)]
        simp [beforeNul, hzero]

theorem beforeNul_append {s : List UInt8} (hs : 0 ∉ s) (rest : List UInt8) :
    beforeNul (s ++ rest) = s ++ beforeNul rest := by
  unfold beforeNul
  rw [List.takeWhile_append_of_pos]
  intro b hb
  simpa using fun hzero : b = 0 => hs (hzero ▸ hb)

theorem beforeNul_snoc (bs : List UInt8) : beforeNul (bs ++ [0]) = beforeNul bs := by
  induction bs with
  | nil => rfl
  | cons b rest ih =>
      unfold beforeNul at *
      by_cases hzero : b = 0
      · simp [hzero]
      · rw [List.cons_append, List.takeWhile_cons_of_pos (by simpa using hzero), ih,
          List.takeWhile_cons_of_pos (by simpa using hzero)]

theorem cString_of_string {s : List UInt8} (h : Contains m a (s ++ [0])) (hs : 0 ∉ s)
    (hroom : s.length < room) : cString m a room = some s := by
  rw [cString_of_contains h (by simp) (by simp; lia), beforeNul_append hs]
  simp [beforeNul]

theorem cString_spec {s : List UInt8} (h : cString m a room = some s) :
    Contains m a (s ++ [0]) ∧ 0 ∉ s ∧ s.length < room := by
  induction room generalizing a s with
  | zero => cases h
  | succ room ih =>
      rw [cString] at h
      split at h
      · rename_i hzero
        cases h
        exact ⟨contains_cons.mpr ⟨hzero, rfl⟩, List.not_mem_nil, Nat.succ_pos room⟩
      · rename_i hne
        rcases Option.map_eq_some_iff.mp h with ⟨rest, hrest, rfl⟩
        rcases ih hrest with ⟨hcontains, hnone, hlength⟩
        refine ⟨contains_cons.mpr ⟨rfl, hcontains⟩, ?_, Nat.succ_lt_succ hlength⟩
        rw [List.mem_cons, not_or]
        exact ⟨fun heq => hne heq.symm, hnone⟩

theorem cString_of_zero {x : Int} (hx : InRange a room x) (hzero : m x = 0) :
    exists s, cString m a room = some s := by
  induction room generalizing a with
  | zero => lia
  | succ room ih =>
      rw [cString]
      split
      · exact ⟨[], rfl⟩
      · rename_i hne
        have hlater : a ≠ x := fun heq => hne (heq ▸ hzero)
        rcases ih (a := a + 1) ⟨by lia, by lia⟩ with ⟨s, hs⟩
        exact ⟨m a :: s, by rw [hs, Option.map_some]⟩

theorem beforeNul_eq_self_iff : beforeNul bs = bs <-> 0 ∉ bs := by
  unfold beforeNul
  rw [List.takeWhile_eq_self_iff]
  constructor
  · intro h hzero
    have hne := h 0 hzero
    simp at hne
  · intro h b hb
    simpa using fun hzero : b = 0 => h (hzero ▸ hb)

theorem zero_not_mem_beforeNul (bs : List UInt8) : 0 ∉ beforeNul bs := by
  intro h
  have hne := List.mem_takeWhile_imp h
  simp at hne

theorem beforeNul_length_le (bs : List UInt8) : (beforeNul bs).length ≤ bs.length :=
  (List.takeWhile_sublist _).length_le

theorem beforeNul_length_lt (h : 0 ∈ bs) : (beforeNul bs).length < bs.length := by
  apply Nat.lt_of_le_of_ne (beforeNul_length_le bs)
  intro hlength
  have hself := (List.takeWhile_sublist _).eq_of_length hlength
  exact beforeNul_eq_self_iff.mp hself h

end Reading

/-!
# Reading until an empty string
-/

/-- The strings before the first empty one. -/
def readUntilEmpty (texts : List (List UInt8)) : List UInt8 :=
  (texts.takeWhile fun s => s ≠ []).flatten

section Blocks

theorem readUntilEmpty_cons (s : List UInt8) (texts : List (List UInt8)) :
    readUntilEmpty (s :: texts) = if s = [] then [] else s ++ readUntilEmpty texts := by
  by_cases hs : s = [] <;> simp [readUntilEmpty, hs]

variable {lines : List (List UInt8)}

theorem readUntilEmpty_length_le (lines : List (List UInt8)) :
    (readUntilEmpty (lines.map beforeNul ++ [[]])).length ≤ lines.flatten.length := by
  induction lines with
  | nil => exact Nat.le_refl 0
  | cons line rest ih =>
      have hline := beforeNul_length_le line
      rw [List.map_cons, List.cons_append, readUntilEmpty_cons, List.flatten_cons,
        List.length_append]
      split
      · exact Nat.zero_le _
      · rw [List.length_append]
        exact Nat.add_le_add hline ih

theorem readUntilEmpty_length_lt (hzero : 0 ∈ lines.flatten) :
    (readUntilEmpty (lines.map beforeNul ++ [[]])).length < lines.flatten.length := by
  induction lines with
  | nil => cases hzero
  | cons line rest ih =>
      have hall := readUntilEmpty_length_le rest
      have hle := beforeNul_length_le line
      have hpos := List.length_pos_of_mem hzero
      rw [List.flatten_cons, List.mem_append] at hzero
      rw [List.flatten_cons, List.length_append] at hpos
      rw [List.map_cons, List.cons_append, readUntilEmpty_cons, List.flatten_cons,
        List.length_append]
      split
      · exact hpos
      · rw [List.length_append]
        rcases hzero with hline | hrest
        · have hlt := beforeNul_length_lt hline
          lia
        · have hlt := ih hrest
          lia

theorem readUntilEmpty_of_no_zero (hzero : 0 ∉ lines.flatten)
    (hlines : forall line, line ∈ lines -> line ≠ []) :
    readUntilEmpty (lines.map beforeNul ++ [[]]) = lines.flatten := by
  induction lines with
  | nil => rfl
  | cons line rest ih =>
      rw [List.flatten_cons, List.mem_append, not_or] at hzero
      have hrest := ih hzero.2 fun l hl => hlines l (List.mem_cons_of_mem line hl)
      rw [List.map_cons, List.cons_append, readUntilEmpty_cons, beforeNul_eq_self_iff.mpr hzero.1,
        if_neg (hlines line List.mem_cons_self), hrest, List.flatten_cons]

theorem readUntilEmpty_eq_flatten (hlines : forall line, line ∈ lines -> line ≠ []) :
    readUntilEmpty lines = lines.flatten := by
  unfold readUntilEmpty
  rw [List.takeWhile_eq_self_iff.mpr]
  intro line hline
  simpa using hlines line hline

theorem readUntilEmpty_append (hlines : forall line, line ∈ lines -> line ≠ [])
    (texts : List (List UInt8)) :
    readUntilEmpty (lines ++ texts) = lines.flatten ++ readUntilEmpty texts := by
  induction lines with
  | nil => rfl
  | cons line rest ih =>
      rw [List.cons_append, readUntilEmpty_cons, if_neg (hlines line List.mem_cons_self),
        ih fun l hl => hlines l (List.mem_cons_of_mem line hl), List.flatten_cons,
        List.append_assoc]

theorem mem_readUntilEmpty {b : UInt8} (h : b ∈ readUntilEmpty lines) :
    exists line, line ∈ lines ∧ b ∈ line := by
  rcases List.mem_flatten.mp h with ⟨line, hline, hb⟩
  exact ⟨line, (List.takeWhile_sublist _).subset hline, hb⟩

end Blocks

/-!
# Writing strings
-/

/-- `snprintf` of a finished text into an array with `size` bytes left. -/
def snprintf (m : Mem) (a : Int) (size : Nat) (text : List UInt8) : Mem :=
  if size = 0 then m else writeBytes m a (text.take (size - 1) ++ [0])

theorem contains_snprintf {m : Mem} {a : Int} {size : Nat} {text : List UInt8}
    (hroom : text.length < size) :
    Contains (snprintf m a size text) a (text ++ [0]) := by
  unfold snprintf
  rw [if_neg (by lia), List.take_of_length_le (by lia)]
  exact contains_write _ _ _

/-- What `fgets` takes from a stream: a line, cut after `limit` bytes. -/
def lineOf : Nat -> List UInt8 -> List UInt8
  | 0, _ => []
  | _ + 1, [] => []
  | limit + 1, c :: stream => if c = 10 then [c] else c :: lineOf limit stream

def fgets (m : Mem) (a : Int) (size : Nat) (stream : List UInt8) : Option (Mem × List UInt8) :=
  match stream with
  | [] => none
  | _ =>
      let line := lineOf (size - 1) stream
      some (writeBytes m a (line ++ [0]), stream.drop line.length)

/-- The array after a `fgets` whose result is not tested. -/
def afterFgets (m : Mem) (a : Int) (size : Nat) (stream : List UInt8) : Mem :=
  match fgets m a size stream with
  | some r => r.1
  | none => m

theorem lineOf_append_drop (limit : Nat) (stream : List UInt8) :
    lineOf limit stream ++ stream.drop (lineOf limit stream).length = stream := by
  induction limit generalizing stream with
  | zero => rfl
  | succ limit ih =>
      cases stream with
      | nil => rfl
      | cons c stream =>
          unfold lineOf
          split
          · rfl
          · simpa using ih stream

theorem lineOf_length_le (limit : Nat) (stream : List UInt8) :
    (lineOf limit stream).length ≤ limit := by
  induction limit generalizing stream with
  | zero => exact Nat.le_refl 0
  | succ limit ih =>
      cases stream with
      | nil => exact Nat.zero_le _
      | cons c stream =>
          unfold lineOf
          split
          · exact Nat.succ_le_succ (Nat.zero_le limit)
          · exact Nat.succ_le_succ (ih stream)

theorem lineOf_append {line : List UInt8} (hline : 10 ∉ line) (limit : Nat) (rest : List UInt8) :
    lineOf limit (line ++ rest) = line.take limit ++ lineOf (limit - line.length) rest := by
  induction line generalizing limit with
  | nil => simp
  | cons c line ih =>
      rw [List.mem_cons, not_or] at hline
      cases limit with
      | zero =>
          rw [Nat.zero_sub]
          rfl
      | succ limit =>
          rw [List.cons_append, lineOf, if_neg fun h => hline.1 h.symm, ih hline.2,
            List.take_succ_cons, List.length_cons, Nat.add_sub_add_right, List.cons_append]

theorem lineOf_of_short {limit : Nat} {line : List UInt8} (hline : 10 ∉ line)
    (hlimit : line.length < limit) (rest : List UInt8) :
    lineOf limit (line ++ 10 :: rest) = line ++ [10] := by
  rcases Nat.exists_eq_add_of_lt hlimit with ⟨k, rfl⟩
  have hroom : line.length + k + 1 - line.length = k + 1 := by lia
  rw [lineOf_append hline, List.take_of_length_le (Nat.le_of_lt hlimit), hroom]
  rfl

theorem lineOf_of_long {limit : Nat} {line : List UInt8} (hline : 10 ∉ line)
    (hlimit : limit ≤ line.length) (rest : List UInt8) :
    lineOf limit (line ++ rest) = line.take limit := by
  rw [lineOf_append hline, Nat.sub_eq_zero_of_le hlimit, lineOf, List.append_nil]

theorem lineOf_ne_nil {limit : Nat} {stream : List UInt8} (hlimit : 0 < limit)
    (hstream : stream ≠ []) : lineOf limit stream ≠ [] := by
  rcases Nat.exists_eq_add_of_lt hlimit with ⟨k, rfl⟩
  cases stream with
  | nil => exact absurd rfl hstream
  | cons c stream =>
      rw [Nat.zero_add, lineOf]
      split <;> simp

section Cuts

variable {α : Type _} {P : α -> Prop} {xs ys xs' ys' : List α} {c d : α}

theorem cut_unique (hxs : forall b, b ∈ xs -> ¬ P b) (hys : forall b, b ∈ ys -> ¬ P b)
    (hc : P c) (hd : P d) (h : xs ++ c :: xs' = ys ++ d :: ys') :
    xs = ys ∧ c = d ∧ xs' = ys' := by
  induction xs generalizing ys with
  | nil =>
      cases ys with
      | nil =>
          cases h
          exact ⟨rfl, rfl, rfl⟩
      | cons y ys =>
          cases h
          exact absurd hc (hys c List.mem_cons_self)
  | cons x xs ih =>
      cases ys with
      | nil =>
          cases h
          exact absurd hd (hxs d List.mem_cons_self)
      | cons y ys =>
          injection h with hhead htail
          rcases ih (fun b hb => hxs b (List.mem_cons_of_mem x hb))
            (fun b hb => hys b (List.mem_cons_of_mem y hb)) htail with ⟨hfront, hlast⟩
          exact ⟨by rw [hhead, hfront], hlast⟩

theorem length_le_of_cut (hxs : forall b, b ∈ xs -> ¬ P b) (hd : P d)
    (h : xs ++ xs' = ys ++ d :: ys') : xs.length ≤ ys.length := by
  rcases List.append_eq_append_iff.mp h with ⟨mid, hys, _⟩ | ⟨mid, hfront, hrest⟩
  · rw [hys, List.length_append]
    exact Nat.le_add_right _ _
  · cases mid with
    | nil => rw [hfront, List.append_nil]
    | cons b mid =>
        injection hrest with hb _
        exact absurd hd (hxs d (by rw [hfront, hb]; simp))

end Cuts

def pieces (limit : Nat) : Nat -> List UInt8 -> List (List UInt8)
  | 0, _ => []
  | _ + 1, [] => []
  | fuel + 1, stream =>
      let line := lineOf limit stream
      line :: pieces limit fuel (stream.drop line.length)

theorem drop_lineOf_length_lt {limit : Nat} {stream : List UInt8} (hlimit : 0 < limit)
    (hstream : stream ≠ []) :
    (stream.drop (lineOf limit stream).length).length < stream.length := by
  have hline := List.length_pos_iff.mpr (lineOf_ne_nil hlimit hstream)
  have hpos := List.length_pos_iff.mpr hstream
  rw [List.length_drop]
  lia

theorem pieces_succ {limit fuel : Nat} {stream : List UInt8} (hstream : stream ≠ []) :
    pieces limit (fuel + 1) stream =
      lineOf limit stream :: pieces limit fuel (stream.drop (lineOf limit stream).length) := by
  cases stream with
  | nil => exact absurd rfl hstream
  | cons c rest => rfl

theorem pieces_fuel {limit fuel k : Nat} {stream : List UInt8} (hlimit : 0 < limit)
    (hfuel : stream.length ≤ fuel) (hk : stream.length ≤ k) :
    pieces limit fuel stream = pieces limit k stream := by
  induction fuel generalizing k stream with
  | zero =>
      rw [List.length_eq_zero_iff.mp (Nat.le_zero.mp hfuel)]
      cases k <;> rfl
  | succ fuel ih =>
      rcases eq_or_ne stream [] with rfl | hstream
      · cases k <;> rfl
      · have hpos := List.length_pos_iff.mpr hstream
        have hlt := drop_lineOf_length_lt hlimit hstream
        rcases Nat.exists_eq_add_of_lt (Nat.lt_of_lt_of_le hpos hk) with ⟨k, rfl⟩
        rw [Nat.zero_add, pieces_succ hstream, pieces_succ hstream,
          ih (k := k) (by lia) (by lia)]

theorem pieces_cons {limit : Nat} {stream : List UInt8} (hlimit : 0 < limit)
    (hstream : stream ≠ []) :
    pieces limit stream.length stream =
      lineOf limit stream ::
        pieces limit (stream.drop (lineOf limit stream).length).length
          (stream.drop (lineOf limit stream).length) := by
  have hlt := drop_lineOf_length_lt hlimit hstream
  rw [pieces_fuel hlimit (Nat.le_refl _) (Nat.le_succ stream.length), pieces_succ hstream,
    pieces_fuel hlimit (Nat.le_of_lt hlt) (Nat.le_refl _)]

theorem pieces_flatten {limit : Nat} (hlimit : 0 < limit) {fuel : Nat} {stream : List UInt8}
    (hfuel : stream.length ≤ fuel) : (pieces limit fuel stream).flatten = stream := by
  induction fuel generalizing stream with
  | zero =>
      rw [List.length_eq_zero_iff.mp (Nat.le_zero.mp hfuel)]
      rfl
  | succ fuel ih =>
      rcases eq_or_ne stream [] with rfl | hstream
      · rfl
      · have hlt := drop_lineOf_length_lt hlimit hstream
        rw [pieces_succ hstream, List.flatten_cons, ih (by lia), lineOf_append_drop]

theorem pieces_length_le (limit fuel : Nat) (stream : List UInt8) :
    (pieces limit fuel stream).length ≤ fuel := by
  induction fuel generalizing stream with
  | zero => exact Nat.le_refl 0
  | succ fuel ih =>
      rcases eq_or_ne stream [] with rfl | hstream
      · exact Nat.zero_le _
      · rw [pieces_succ hstream]
        exact Nat.succ_le_succ (ih _)

theorem pieces_ne_nil {limit fuel : Nat} {stream line : List UInt8} (hlimit : 0 < limit)
    (hline : line ∈ pieces limit fuel stream) : line ≠ [] := by
  induction fuel generalizing stream with
  | zero => cases hline
  | succ fuel ih =>
      rcases eq_or_ne stream [] with rfl | hstream
      · cases hline
      · rw [pieces_succ hstream, List.mem_cons] at hline
        rcases hline with rfl | hline
        · exact lineOf_ne_nil hlimit hstream
        · exact ih hline

theorem length_le_of_mem_pieces {limit fuel : Nat} {stream line : List UInt8}
    (hline : line ∈ pieces limit fuel stream) : line.length ≤ limit := by
  induction fuel generalizing stream with
  | zero => cases hline
  | succ fuel ih =>
      rcases eq_or_ne stream [] with rfl | hstream
      · cases hline
      · rw [pieces_succ hstream, List.mem_cons] at hline
        rcases hline with rfl | hline
        · exact lineOf_length_le limit stream
        · exact ih hline

/-!
# Lines
-/

def withoutNewline (s : List UInt8) : List UInt8 :=
  if s.getLast? = some 10 then s.dropLast else s

theorem withoutNewline_sublist (s : List UInt8) : (withoutNewline s).Sublist s := by
  unfold withoutNewline
  split
  · exact List.dropLast_sublist s
  · exact List.Sublist.refl s

theorem zero_not_mem_line (limit : Nat) (stream : List UInt8) :
    0 ∉ withoutNewline (beforeNul (lineOf limit stream)) := by
  intro h
  exact zero_not_mem_beforeNul _ ((withoutNewline_sublist _).subset h)

theorem line_length_le (limit : Nat) (stream : List UInt8) :
    (withoutNewline (beforeNul (lineOf limit stream))).length ≤ limit := by
  have hline := (withoutNewline_sublist (beforeNul (lineOf limit stream))).length_le
  have hnul := beforeNul_length_le (lineOf limit stream)
  have hlimit := lineOf_length_le limit stream
  lia

theorem withoutNewline_snoc (line : List UInt8) : withoutNewline (line ++ [10]) = line := by
  simp [withoutNewline]

theorem withoutNewline_of_no_newline {line : List UInt8} (hline : 10 ∉ line) :
    withoutNewline line = line :=
  if_neg fun hlast => hline (List.mem_of_getLast? hlast)

theorem readBytes_withoutNewline {m : Mem} {a : Int} {s : List UInt8} (h : Contains m a s)
    (hs : s ≠ []) :
    readBytes m a (if m (a + (s.length - 1)) = 10 then (s.length - 1 : Int) else s.length).toNat =
      withoutNewline s := by
  rcases List.eq_nil_or_concat s with rfl | ⟨front, c, rfl⟩
  · exact absurd rfl hs
  · rw [List.concat_eq_append] at h ⊢
    have hfront := contains_append.mp h
    have hlength : ((front ++ [c]).length - 1 : Int) = front.length := by simp
    have hlast : m (a + ((front ++ [c]).length - 1)) = c := by
      rw [hlength]
      exact (contains_cons.mp hfront.2).1
    rw [hlast]
    by_cases hnewline : c = 10
    · rw [if_pos hnewline, hlength, Int.toNat_natCast, hfront.1]
      simp [withoutNewline, hnewline]
    · rw [if_neg hnewline, Int.toNat_natCast, h]
      simp [withoutNewline, hnewline]

theorem contains_line {m : Mem} {a b : Int} {front : List UInt8} (size : Nat)
    (stream : List UInt8) (h : Contains m a (front ++ [0])) (hb : b = a + front.length) :
    Contains (afterFgets m b size stream) a (front ++ (lineOf (size - 1) stream ++ [0])) := by
  cases stream with
  | nil =>
      have hnone : lineOf (size - 1) [] = [] := by cases size - 1 <;> rfl
      rw [hnone]
      exact h
  | cons c rest =>
      rw [contains_append]
      constructor
      · exact (contains_append.mp h).1.frame (Or.inl (Int.le_of_eq hb.symm))
      · rw [← hb]
        exact contains_write _ _ _

/-!
# Numbers
-/

/-- The decimal digits of a number; the first argument is larger than the number. -/
def digits : Nat -> Nat -> List UInt8
  | 0, _ => []
  | fuel + 1, n =>
      if n < 10 then
        [UInt8.ofNat (48 + n)]
      else
        digits fuel (n / 10) ++ [UInt8.ofNat (48 + n % 10)]

/-- `%ld` of a number that is not negative. -/
def decimal (n : Nat) : List UInt8 :=
  digits (n + 1) n

def isDigit (c : UInt8) : Bool :=
  48 ≤ c.toNat && c.toNat ≤ 57

def isSpace (c : UInt8) : Bool :=
  c.toNat = 32 || (9 ≤ c.toNat && c.toNat ≤ 13)

def LONG_MAX : Nat := 2 ^ 63 - 1

def atolDigits (acc : Nat) : List UInt8 -> Nat
  | [] => acc
  | c :: rest => if isDigit c then atolDigits (acc * 10 + (c.toNat - 48)) rest else acc

/-- `atol`, which stops at the ends of the range of `long`. -/
def atol (s : List UInt8) : Int :=
  match s.dropWhile isSpace with
  | 45 :: rest => -(min (atolDigits 0 rest) (LONG_MAX + 1) : Nat)
  | 43 :: rest => (min (atolDigits 0 rest) LONG_MAX : Nat)
  | rest => (min (atolDigits 0 rest) LONG_MAX : Nat)

theorem digit_toNat {d : Nat} (hd : d < 10) : (UInt8.ofNat (48 + d)).toNat = 48 + d := by
  rw [UInt8.toNat_ofNat']
  lia

theorem digits_isDigit {fuel n : Nat} {c : UInt8} (h : c ∈ digits fuel n) : isDigit c = true := by
  induction fuel generalizing n with
  | zero => cases h
  | succ fuel ih =>
      rw [digits] at h
      split at h
      · rename_i hn
        rw [List.mem_singleton.mp h]
        simp only [isDigit, digit_toNat hn, Bool.and_eq_true, decide_eq_true_eq]
        lia
      · rcases List.mem_append.mp h with hfront | hlast
        · exact ih hfront
        · have hn : n % 10 < 10 := Nat.mod_lt n (by decide)
          rw [List.mem_singleton.mp hlast]
          simp only [isDigit, digit_toNat hn, Bool.and_eq_true, decide_eq_true_eq]
          lia

theorem digits_length_le {fuel n k : Nat} (hk : 0 < k) (hn : n < 10 ^ k) :
    (digits fuel n).length ≤ k := by
  induction fuel generalizing n k with
  | zero => exact Nat.zero_le k
  | succ fuel ih =>
      rw [digits]
      split
      · exact hk
      · rename_i hlarge
        cases k with
        | zero => cases hk
        | succ k =>
            have hdiv : n / 10 < 10 ^ k := by
              rw [Nat.pow_succ] at hn
              exact Nat.div_lt_of_lt_mul (by lia)
            have hpos : 0 < k := by
              apply Nat.pos_of_ne_zero
              intro hzero
              subst hzero
              lia
            have hfront := ih hpos hdiv
            simp only [List.length_append, List.length_cons, List.length_nil]
            lia

theorem atolDigits_append {acc : Nat} {front : List UInt8}
    (hfront : forall c, c ∈ front -> isDigit c = true) (rest : List UInt8) :
    atolDigits acc (front ++ rest) = atolDigits (atolDigits acc front) rest := by
  induction front generalizing acc with
  | nil => rfl
  | cons c front ih =>
      have hc := hfront c (by simp)
      rw [List.cons_append, atolDigits, atolDigits, if_pos hc, if_pos hc]
      exact ih fun d hd => hfront d (by simp [hd])

theorem atolDigits_digits {fuel n : Nat} (hfuel : n < fuel) : atolDigits 0 (digits fuel n) = n := by
  induction fuel generalizing n with
  | zero => cases hfuel
  | succ fuel ih =>
      rw [digits]
      split
      · rename_i hn
        have hmem : UInt8.ofNat (48 + n) ∈ digits 1 n := by simp [digits, hn]
        rw [atolDigits, if_pos (digits_isDigit hmem), digit_toNat hn]
        show 0 * 10 + (48 + n - 48) = n
        lia
      · have hn : n % 10 < 10 := Nat.mod_lt n (by decide)
        have hmem : UInt8.ofNat (48 + n % 10) ∈ digits 1 (n % 10) := by simp [digits, hn]
        rw [atolDigits_append fun c hc => digits_isDigit hc, ih (by lia), atolDigits,
          if_pos (digits_isDigit hmem), digit_toNat hn]
        show n / 10 * 10 + (48 + n % 10 - 48) = n
        lia

theorem decimal_ne_nil (n : Nat) : decimal n ≠ [] := by
  unfold decimal
  rw [digits]
  split <;> simp

theorem atol_decimal {n : Nat} (hn : n ≤ LONG_MAX) : atol (decimal n) = n := by
  have hvalue : atolDigits 0 (decimal n) = n := atolDigits_digits (Nat.lt_succ_self n)
  have hdigit : forall c, c ∈ decimal n -> isDigit c = true := fun c hc => digits_isDigit hc
  cases hs : decimal n with
  | nil => exact absurd hs (decimal_ne_nil n)
  | cons c rest =>
      rw [hs] at hvalue hdigit
      have hc := hdigit c (by simp)
      simp only [isDigit, Bool.and_eq_true, decide_eq_true_eq] at hc
      have hspace : isSpace c = false := by
        simp only [isSpace, Bool.or_eq_false_iff, Bool.and_eq_false_iff, decide_eq_false_iff_not]
        lia
      unfold atol
      rw [List.dropWhile_cons_of_neg (by simp [hspace])]
      split
      · rename_i heq
        cases heq
        exact absurd hc.1 (by decide)
      · rename_i heq
        cases heq
        exact absurd hc.1 (by decide)
      · rw [hvalue, Nat.min_eq_left hn]

def longText (v : Int) : List UInt8 :=
  if v < 0 then 45 :: decimal v.natAbs else decimal v.natAbs

def afterSign : List UInt8 -> List UInt8
  | 45 :: rest => rest
  | 43 :: rest => rest
  | rest => rest

/-- `sscanf` with `%ld`, which stores nothing when no digit is found. -/
def scanLong (s : List UInt8) : Option Int :=
  if (afterSign (s.dropWhile isSpace)).head?.any isDigit then some (atol s) else none

theorem zero_not_mem_longText (v : Int) : 0 ∉ longText v := by
  have hdecimal : 0 ∉ decimal v.natAbs := by
    intro h
    cases digits_isDigit h
  unfold longText
  split
  · rw [List.mem_cons, not_or]
    exact ⟨by decide, hdecimal⟩
  · exact hdecimal

theorem longText_length_le {v : Int} (hlow : -(2 ^ 63) ≤ v) (hhigh : v < 2 ^ 63) :
    (longText v).length ≤ 20 := by
  have hdigits : (decimal v.natAbs).length ≤ 19 := digits_length_le (by decide) (by lia)
  unfold longText
  split
  · rw [List.length_cons]
    lia
  · lia

theorem atolDigits_decimal {n : Nat} {c : UInt8} (hc : isDigit c = false) (rest : List UInt8) :
    atolDigits 0 (decimal n ++ c :: rest) = n := by
  unfold decimal
  rw [atolDigits_append fun d hd => digits_isDigit hd, atolDigits_digits (Nat.lt_succ_self n),
    atolDigits, if_neg (by simp [hc])]

theorem scanLong_minus {d : UInt8} (hd : isDigit d = true) (rest : List UInt8) :
    scanLong (45 :: d :: rest) =
      some (-((min (atolDigits 0 (d :: rest)) (LONG_MAX + 1) : Nat) : Int)) := by
  have hspace : ¬ isSpace 45 = true := by decide
  unfold scanLong atol
  rw [List.dropWhile_cons_of_neg hspace]
  simp [afterSign, hd]

theorem scanLong_digit {d : UInt8} (hd : isDigit d = true) (rest : List UInt8) :
    scanLong (d :: rest) = some ((min (atolDigits 0 (d :: rest)) LONG_MAX : Nat) : Int) := by
  have hrange := hd
  simp only [isDigit, Bool.and_eq_true, decide_eq_true_eq] at hrange
  have hspace : ¬ isSpace d = true := by
    simp only [isSpace, Bool.or_eq_true, Bool.and_eq_true, decide_eq_true_eq]
    lia
  have hsign : afterSign (d :: rest) = d :: rest := by
    unfold afterSign
    split
    · rename_i heq
      cases heq
      exact absurd hrange.1 (by decide)
    · rename_i heq
      cases heq
      exact absurd hrange.1 (by decide)
    · rfl
  have hvalue : atol (d :: rest) = ((min (atolDigits 0 (d :: rest)) LONG_MAX : Nat) : Int) := by
    unfold atol
    rw [List.dropWhile_cons_of_neg hspace]
    split
    · rename_i heq
      cases heq
      exact absurd hrange.1 (by decide)
    · rename_i heq
      cases heq
      exact absurd hrange.1 (by decide)
    · rfl
  unfold scanLong
  rw [List.dropWhile_cons_of_neg hspace, hsign, hvalue]
  simp [hd]

theorem scanLong_longText {v : Int} (hlow : -(2 ^ 63) ≤ v) (hhigh : v < 2 ^ 63) {c : UInt8}
    (hc : isDigit c = false) (rest : List UInt8) :
    scanLong (longText v ++ c :: rest) = some v := by
  have hvalue := atolDigits_decimal (n := v.natAbs) hc rest
  have hdigit : forall d, d ∈ decimal v.natAbs -> isDigit d = true :=
    fun d hd => digits_isDigit hd
  unfold longText
  cases hs : decimal v.natAbs with
  | nil => exact absurd hs (decimal_ne_nil _)
  | cons d ds =>
      rw [hs] at hvalue hdigit
      have hd := hdigit d List.mem_cons_self
      rw [List.cons_append] at hvalue
      by_cases hneg : v < 0
      · rw [if_pos hneg, List.cons_append, List.cons_append, scanLong_minus hd, hvalue,
          Nat.min_eq_left (by unfold LONG_MAX; lia)]
        exact congrArg some (by lia)
      · rw [if_neg hneg, List.cons_append, scanLong_digit hd, hvalue,
          Nat.min_eq_left (by unfold LONG_MAX; lia)]
        exact congrArg some (by lia)

end Verification
