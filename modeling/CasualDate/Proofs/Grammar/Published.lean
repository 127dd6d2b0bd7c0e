import CasualDate.Expr.Date

/-!
# The published grammar

The sentences of the grammar in the documentation, one constructor for each production, in its order;
the sentences that are numbers stand for a value, which some productions ask for. Words are those of the
text, whatever their spelling. That a year is not followed by a colon or by "am" or "pm" goes without
saying: nothing in the grammar begins with them.
-/

namespace CasualDate.Grammar

/-- What is left open in two productions. -/
structure Dialect where
  /-- The marks between the numbers of a date of two numbers. -/
  betweenTwo : Word → Prop
  /-- The years that follow a comma. -/
  behindComma : Nat → Prop

/-- The marks between the numbers of a date of three numbers. -/
def marks : List Word :=
  [.slash, .dash, .dot]

/-- The grammar of the documentation. -/
def published : Dialect where
  betweenTwo w := w = .slash
  behindComma y := 1000 ≤ y ∧ y ≤ 9999

/-- The grammar that is read: a date of two numbers has the same marks as one of three, and any year
with four digits or more follows a comma. -/
def accepted : Dialect where
  betweenTwo w := w ∈ marks
  behindComma y := 1000 ≤ y

inductive Ones : Word → Nat → Prop where
  | word (n : Numeral) (hlt : n.value < 10) : Ones (.numeral n) n.value
  | literal (n : Text.Count) (hlt : n.val < 10) : Ones (.literal n) n.val

inductive Teens : Word → Nat → Prop where
  | word (n : Numeral) (hge : 10 ≤ n.value) (hlt : n.value < 20) : Teens (.numeral n) n.value
  | literal (n : Text.Count) (hge : 10 ≤ n.val) (hlt : n.val < 20) : Teens (.literal n) n.val

inductive Tens : Word → Nat → Prop where
  | word (n : Numeral) (hge : 20 ≤ n.value) : Tens (.numeral n) n.value

inductive Double : List Word → Nat → Prop where
  | ones {w : Word} {n : Nat} (h : Ones w n) : Double [w] n
  | dashed {v w : Word} {m n : Nat} (hv : Tens v m) (hw : Ones w n) : Double [v, .dash, w] (m + n)
  | joined {v w : Word} {m n : Nat} (hv : Tens v m) (hw : Ones w n) : Double [v, w] (m + n)
  | tens {w : Word} {n : Nat} (h : Tens w n) : Double [w] n
  | teens {w : Word} {n : Nat} (h : Teens w n) : Double [w] n
  | literal (n : Text.Count) (hge : 20 ≤ n.val) (hlt : n.val < 100) : Double [.literal n] n.val

inductive Triple : List Word → Nat → Prop where
  | onesHundredAnd {w : Word} {us : List Word} {k n : Nat} (hw : Ones w k) (h : Double us n) :
    Triple (w :: .hundred :: .andWord :: us) (k * 100 + n)
  | onesHundredWith {w : Word} {us : List Word} {k n : Nat} (hw : Ones w k) (h : Double us n) :
    Triple (w :: .hundred :: us) (k * 100 + n)
  | onesHundred {w : Word} {k : Nat} (hw : Ones w k) : Triple [w, .hundred] (k * 100)
  | hundredAnd {us : List Word} {n : Nat} (h : Double us n) :
    Triple (.hundred :: .andWord :: us) (100 + n)
  | hundredWith {us : List Word} {n : Nat} (h : Double us n) : Triple (.hundred :: us) (100 + n)
  | hundred : Triple [.hundred] 100
  | double {us : List Word} {n : Nat} (h : Double us n) : Triple us n
  | literal (n : Text.Count) (hge : 100 ≤ n.val) (hlt : n.val < 1000) : Triple [.literal n] n.val

inductive Num : List Word → Nat → Prop where
  | tripleScaleAnd {us vs : List Word} {k n : Nat} (s : Scale) (hu : Triple us k) (hv : Num vs n) :
    Num (us ++ .scale s :: .andWord :: vs) (k * s.value + n)
  | tripleScaleWith {us vs : List Word} {k n : Nat} (s : Scale) (hu : Triple us k) (hv : Num vs n) :
    Num (us ++ .scale s :: vs) (k * s.value + n)
  | tripleScale {us : List Word} {k : Nat} (s : Scale) (hu : Triple us k) :
    Num (us ++ [.scale s]) (k * s.value)
  | scaleAnd {vs : List Word} {n : Nat} (s : Scale) (hv : Num vs n) :
    Num (.scale s :: .andWord :: vs) (s.value + n)
  | scaleWith {vs : List Word} {n : Nat} (s : Scale) (hv : Num vs n) :
    Num (.scale s :: vs) (s.value + n)
  | scale (s : Scale) : Num [.scale s] s.value
  | triple {us : List Word} {k : Nat} (hu : Triple us k) : Num us k
  | literal (n : Text.Count) (hge : 1000 ≤ n.val) : Num [.literal n] n.val

/-- A sentence of the kind, or nothing. -/
def Opt (S : List Word → Prop) (ws : List Word) : Prop :=
  ws = [] ∨ S ws

inductive Year (d : Dialect) : List Word → Prop where
  | behindComma {us : List Word} {n : Nat} (hu : Num us n) (hyear : d.behindComma n) :
    Year d (.comma :: us)
  | num {us : List Word} {n : Nat} (hu : Num us n) : Year d us

inductive Time : List Word → Prop where
  | num {us : List Word} {n : Nat} (hu : Num us n) : Time us
  | clock {us vs : List Word} {m n : Nat} (hu : Num us m) (hv : Num vs n) : Time (us ++ .colon :: vs)
  | clockHalf {us vs : List Word} {m n : Nat} (hu : Num us m) (hv : Num vs n) (half : Meridiem) :
    Time (us ++ .colon :: vs ++ [.meridiem half])
  | half {us : List Word} {n : Nat} (hu : Num us n) (half : Meridiem) : Time (us ++ [.meridiem half])
  | midnight : Time [.midnight]
  | noon : Time [.noon]

/-- A duration with the units that it counts. -/
inductive Duration : List Word → List TimeUnit → Prop where
  | num {us : List Word} {n : Nat} (hu : Num us n) (u : TimeUnit) : Duration (us ++ [.unit u]) [u]
  | indefinite (u : TimeUnit) : Duration [.indefinite, .unit u] [u]
  | the (u : TimeUnit) : Duration [.the, .unit u] [u]
  | both {us vs : List Word} {a b : List TimeUnit} (hu : Duration us a) (hv : Duration vs b) :
    Duration (us ++ .andWord :: vs) (a ++ b)

inductive Date (d : Dialect) : List Word → Prop where
  | today : Date d [.today]
  | tomorrow : Date d [.tomorrow]
  | yesterday : Date d [.yesterday]
  /-- The three productions of three numbers, which differ in the mark. -/
  | threeNums {us vs ws : List Word} {k m n : Nat} {w : Word} (hw : w ∈ marks)
    (hu : Num us k) (hv : Num vs m) (hn : Num ws n) : Date d (us ++ w :: vs ++ w :: ws)
  | twoNums {us vs : List Word} {m n : Nat} {w : Word} (hw : d.betweenTwo w) (hu : Num us m)
    (hv : Num vs n) : Date d (us ++ w :: vs)
  | monthDay {us ss ys : List Word} {n : Nat} (m : Month) (hu : Num us n)
    (hs : Opt (· = [.ordinalSuffix]) ss) (hy : Opt (Year d) ys) : Date d (.month m :: us ++ ss ++ ys)
  | dayMonth {ts us ss os ys : List Word} {n : Nat} (m : Month) (ht : Opt (· = [.the]) ts)
    (hu : Num us n) (hs : Opt (· = [.ordinalSuffix]) ss) (ho : Opt (· = [.ofWord]) os)
    (hy : Opt (Year d) ys) : Date d (ts ++ us ++ ss ++ os ++ .month m :: ys)
  | monthYear {us : List Word} {n : Nat} (m : Month) (hu : Num us n) (hge : 32 ≤ n) :
    Date d (.month m :: us)
  | month (m : Month) : Date d [.month m]
  | ago {us : List Word} {a : List TimeUnit} (hu : Duration us a)
    (hdays : ∀ u ∈ a, u.isSubDaily = false) : Date d (us ++ [.agoWord])
  | after {us vs : List Word} {a : List TimeUnit} (hu : Duration us a) (hv : Date d vs) :
    Date d (us ++ .afterWord :: vs)
  | fromDate {us vs : List Word} {a : List TimeUnit} (hu : Duration us a) (hv : Date d vs) :
    Date d (us ++ .fromWord :: vs)
  | relativeWeekday (r : Relative) (a : Weekday) : Date d [.relative r, .weekday a]
  | relativeUnit (r : Relative) (u : TimeUnit) : Date d [.relative r, .unit u]
  | weekday (a : Weekday) : Date d [.weekday a]

inductive DateTime (d : Dialect) : List Word → Prop where
  | time {us : List Word} (hu : Time us) : DateTime d us
  | timeCommaDate {us vs : List Word} (hu : Time us) (hv : Date d vs) : DateTime d (us ++ .comma :: vs)
  | timeDate {us vs : List Word} (hu : Time us) (hv : Date d vs) : DateTime d (us ++ vs)
  | timeOnDate {us vs : List Word} (hu : Time us) (hv : Date d vs) : DateTime d (us ++ .onWord :: vs)
  | date {us : List Word} (hu : Date d us) : DateTime d us
  | dateTime {us vs : List Word} (hu : Date d us) (hv : Time vs) : DateTime d (us ++ vs)
  | dateCommaTime {us vs : List Word} (hu : Date d us) (hv : Time vs) : DateTime d (us ++ .comma :: vs)
  | dateAtTime {us vs : List Word} (hu : Date d us) (hv : Time vs) : DateTime d (us ++ .atWord :: vs)
  | after {us vs : List Word} {a : List TimeUnit} (hu : Duration us a) (hv : DateTime d vs) :
    DateTime d (us ++ .afterWord :: vs)
  | fromMoment {us vs : List Word} {a : List TimeUnit} (hu : Duration us a) (hv : DateTime d vs) :
    DateTime d (us ++ .fromWord :: vs)
  | before {us vs : List Word} {a : List TimeUnit} (hu : Duration us a) (hv : DateTime d vs) :
    DateTime d (us ++ .beforeWord :: vs)
  | ago {us : List Word} {a : List TimeUnit} (hu : Duration us a) : DateTime d (us ++ [.agoWord])
  | inDuration {us : List Word} {a : List TimeUnit} (hu : Duration us a) : DateTime d (.inWord :: us)
  | now : DateTime d [.now]

end CasualDate.Grammar
