import AlienConnection.Bg.TrafficMonitor
import AlienConnection.Library.Decimal
import AlienConnection.Library.Pattern

/-!
# Speed figures

The notification of the service writes the two rates into one line of text, takes them out of
that line again with a pattern, and broadcasts them to the home screen. The line has the rate
that is sent in front, and the broadcast calls what stands in front the download.
-/

namespace AlienConnection.Ui

open Bg Database Library

/-! ## The line of text -/

def isArrow (char : Char) : Bool := char == '↑' || char == '↓'

structure CharClasses where
  digit : Char → Bool
  space : Char → Bool
  tab : space '\t' = true
  blank : space ' ' = true
  point : space '.' = false
  slash : space '/' = false
  latin : space 's' = false
  cyrillic : space 'с' = false
  arrow : ∀ char, isArrow char = true → space char = false
  digit_solid : ∀ char, digit char = true → space char = false

namespace CharClasses

variable (classes : CharClasses)

def Plain (char : Char) : Prop := classes.space char = false ∧ isArrow char = false

def numeral (char : Char) : Bool := classes.digit char || char == '.'

theorem solid_of_numeral {char : Char} (numeral : classes.numeral char = true) :
    classes.space char = false := by
  rw [CharClasses.numeral, Bool.or_eq_true, beq_iff_eq] at numeral
  rcases numeral with digit | rfl
  · exact classes.digit_solid char digit
  · exact classes.point

theorem not_arrow_of_space {char : Char} (space : classes.space char = true) :
    isArrow char = false := by
  rw [Bool.eq_false_iff]
  intro arrow
  rw [classes.arrow char arrow] at space
  cases space

end CharClasses

/-- A size as the platform formats it: a number, white space and a unit. -/
structure FileSize (classes : CharClasses) where
  number : Text
  gap : Text
  unit : Text
  number_ne : number ≠ []
  number_plain : ∀ char ∈ number, classes.Plain char
  gap_ne : gap ≠ []
  gap_space : ∀ char ∈ gap, classes.space char = true
  unit_plain : ∀ char ∈ unit, classes.Plain char

def FileSize.text {classes : CharClasses} (size : FileSize classes) : Text :=
  size.number ++ (size.gap ++ size.unit)

inductive Language where
  | english
  | russian
  | ukrainian
  deriving DecidableEq, Repr

def Language.perSecond : Language → Text
  | english => ['/', 's']
  | russian => ['/', 'с']
  | ukrainian => ['/', 'с']

def speed (language : Language) (size : Text) : Text := size ++ language.perSecond

def traffic (sent received : Text) : Text := sent ++ '↑' :: '\t' :: (received ++ ['↓'])

/-! ## The callback of the notification -/

structure Intent where
  action : String
  extras : List (String × Text) := []
  deriving DecidableEq, Repr

def Intent.putExtra (intent : Intent) (name : String) (value : Text) : Intent :=
  { intent with extras := (name, value) :: intent.extras }

def Intent.getStringExtra (intent : Intent) (name : String) : Option Text :=
  intent.extras.lookup name

structure NotificationRuntime where
  classes : CharClasses
  language : Language
  formatFileSize : Long → FileSize classes

/-- What one call leaves: the texts of the notification, and the broadcast if there is one. -/
structure TrafficUpdate where
  contentText : Text
  subText : Text
  broadcast : Option Intent
  deriving DecidableEq, Repr

/-- The regular expression, with the white space between its groups. -/
def pattern (classes : CharClasses) : List Run :=
  [.plus classes.numeral, .star classes.space, .plus (fun char => !classes.space char),
    .star classes.space, .single isArrow, .star classes.space,
    .plus classes.numeral, .star classes.space, .plus (fun char => !classes.space char),
    .star classes.space, .single isArrow]

def speedIntent : List Text → Option Intent
  | [value1, _, unit1, _, _, _, value2, _, unit2, _, _] =>
      let intent : Intent := { action := "com.beetle.chili.speed" }
      let intent := intent.putExtra "download" (value1 ++ ' ' :: unit1)
      some (intent.putExtra "upload" (value2 ++ ' ' :: unit2))
  | _ => none

namespace NotificationRuntime

variable (runtime : NotificationRuntime)

def speedText (rate : Long) : Text := speed runtime.language (runtime.formatFileSize rate).text

def speedLine (stats : TrafficStats) : Text :=
  traffic (runtime.speedText stats.txRate) (runtime.speedText stats.rxRate)

def trafficUpdated (profileId : Long) (stats : TrafficStats) : Option TrafficUpdate :=
  if profileId ≠ 0 then none
  else some
    { contentText := runtime.speedLine stats
      subText := traffic (runtime.formatFileSize stats.txTotal).text
        (runtime.formatFileSize stats.rxTotal).text
      broadcast :=
        (Pattern.find (pattern runtime.classes) (runtime.speedLine stats)).bind speedIntent }

end NotificationRuntime

/-! ## The home screen -/

structure SpeedView where
  tvDownValue : Text
  tvUpValue : Text
  deriving DecidableEq, Repr

def speedLong (download upload : Text) (_ : SpeedView) : SpeedView :=
  { tvDownValue := download, tvUpValue := upload }

def onReceive (intent : Option Intent) (view : SpeedView) : SpeedView :=
  speedLong ((intent.bind (·.getStringExtra "download")).getD ['0'])
    ((intent.bind (·.getStringExtra "upload")).getD ['0']) view

def SpeedView.after (view : SpeedView) : Option Intent → SpeedView
  | none => view
  | some intent => onReceive (some intent) view

/-! ## Reading a rate -/

/-- What the pattern takes for one rate: a number, white space, a word and white space. -/
structure Figure (classes : CharClasses) (value gap unit rest : Text) : Prop where
  value_ne : value ≠ []
  value_numeral : ∀ char ∈ value, classes.numeral char = true
  gap_space : ∀ char ∈ gap, classes.space char = true
  unit_ne : unit ≠ []
  unit_solid : ∀ char ∈ unit, classes.space char = false
  rest_space : ∀ char ∈ rest, classes.space char = true

section Reading

variable {classes : CharClasses}

theorem perSecond_plain (classes : CharClasses) (language : Language) :
    ∀ char ∈ language.perSecond, classes.Plain char := by
  cases language <;>
    simp [Language.perSecond, CharClasses.Plain, classes.slash, classes.latin, classes.cyrillic,
      isArrow]

def FileSize.speedUnit (size : FileSize classes) (language : Language) : Text :=
  size.unit ++ language.perSecond

theorem FileSize.speedUnit_ne (size : FileSize classes) (language : Language) :
    size.speedUnit language ≠ [] := by
  cases language <;> simp [FileSize.speedUnit, Language.perSecond]

theorem FileSize.speedUnit_plain (size : FileSize classes) (language : Language) :
    ∀ char ∈ size.speedUnit language, classes.Plain char := by
  intro char member
  rcases List.mem_append.mp member with unit | suffix
  · exact size.unit_plain char unit
  · exact perSecond_plain classes language char suffix

theorem FileSize.speed_text (size : FileSize classes) (language : Language) :
    speed language size.text = size.number ++ (size.gap ++ size.speedUnit language) := by
  rw [speed, FileSize.text, FileSize.speedUnit, List.append_assoc, List.append_assoc]

/-- The text of a rate has no arrows. -/
theorem FileSize.not_arrow (size : FileSize classes) (language : Language) :
    ∀ char ∈ speed language size.text, isArrow char = false := by
  intro char member
  rw [size.speed_text, List.mem_append, List.mem_append] at member
  rcases member with number | gap | unit
  · exact (size.number_plain char number).2
  · exact classes.not_arrow_of_space (size.gap_space char gap)
  · exact (size.speedUnit_plain language char unit).2

/-- The text of a rate is read as it was written when its number is in digits and points. -/
theorem FileSize.figure_self (size : FileSize classes) (language : Language)
    (readable : ∀ char ∈ size.number, classes.numeral char = true) :
    Figure classes size.number size.gap (size.speedUnit language) [] where
  value_ne := size.number_ne
  value_numeral := readable
  gap_space := size.gap_space
  unit_ne := size.speedUnit_ne language
  unit_solid := fun char member => (size.speedUnit_plain language char member).1
  rest_space := fun _ member => absurd member List.not_mem_nil

/-- White space cannot end the text of a rate. -/
theorem FileSize.rest_eq_nil (size : FileSize classes) (language : Language)
    {front rest : Text} (space : ∀ char ∈ rest, classes.space char = true)
    (same : front ++ rest = speed language size.text) : rest = [] := by
  by_contra nonempty
  have last := List.getLast?_append_of_ne_nil front nonempty
  rw [same, size.speed_text, ← List.append_assoc,
    List.getLast?_append_of_ne_nil _ (size.speedUnit_ne language),
    List.getLast?_eq_some_getLast nonempty] at last
  have solid := (size.speedUnit_plain language _ (List.mem_of_getLast? last)).1
  rw [space _ (List.getLast_mem nonempty)] at solid
  cases solid

/-- The text of a rate can be read in one way only. -/
theorem FileSize.figure_unique (size : FileSize classes) (language : Language)
    {value gap unit rest : Text} (figure : Figure classes value gap unit rest)
    (same : value ++ (gap ++ (unit ++ rest)) = speed language size.text) :
    value = size.number ∧ unit = size.speedUnit language := by
  have ends : rest = [] := by
    rw [← List.append_assoc, ← List.append_assoc] at same
    exact size.rest_eq_nil language figure.rest_space same
  subst ends
  rw [size.speed_text, List.append_nil] at same
  have solid : ∀ char ∈ value ++ unit, classes.space char = false := by
    intro char member
    rcases List.mem_append.mp member with inValue | inUnit
    · exact classes.solid_of_numeral (figure.value_numeral char inValue)
    · exact figure.unit_solid char inUnit
  have solidSize : ∀ char ∈ size.number ++ size.speedUnit language,
      classes.space char = false := by
    intro char member
    rcases List.mem_append.mp member with inNumber | inUnit
    · exact (size.number_plain char inNumber).1
    · exact (size.speedUnit_plain language char inUnit).1
  obtain ⟨sameNumber, _, sameUnit⟩ := Pattern.words_inj solid solidSize figure.gap_space
    size.gap_space size.gap_ne figure.unit_ne (size.speedUnit_ne language) same
  exact ⟨sameNumber, sameUnit⟩

/-- White space in front of the text of a rate is not read as a part of it. -/
theorem FileSize.figure_behind_tab (size : FileSize classes) (language : Language)
    {tab value gap unit rest : Text} (space : ∀ char ∈ tab, classes.space char = true)
    (figure : Figure classes value gap unit rest)
    (same : tab ++ (value ++ (gap ++ (unit ++ rest))) = '\t' :: speed language size.text) :
    value ++ (gap ++ (unit ++ rest)) = speed language size.text := by
  obtain ⟨first, others, rfl⟩ := List.exists_cons_of_ne_nil figure.value_ne
  obtain ⟨first', others', number⟩ := List.exists_cons_of_ne_nil size.number_ne
  have solid : classes.space first = false :=
    classes.solid_of_numeral (figure.value_numeral first List.mem_cons_self)
  have solid' : classes.space first' = false :=
    (size.number_plain first' (number ▸ List.mem_cons_self)).1
  rw [size.speed_text, number] at same ⊢
  obtain ⟨_, rfl, later⟩ := @Pattern.append_cons_inj (fun char => !classes.space char) tab ['\t']
    _ _ first first' (fun char member => by simp [space char member])
    (fun char member => by simp [List.mem_singleton.mp member, classes.tab])
    (by simp [solid]) (by simp [solid']) same
  exact congrArg (first :: ·) later

end Reading

/-! ## Reading the line -/

section Line

variable {classes : CharClasses}

/-- The first four runs of the pattern, and the four behind the first arrow, take a rate. -/
theorem figure_of_fits {more : List Run} {parts : List Text}
    (fitted : List.Forall₂ (fun run part => run.fits part = true)
      (.plus classes.numeral :: .star classes.space :: .plus (fun char => !classes.space char) ::
        .star classes.space :: .single isArrow :: more) parts) :
    ∃ value gap unit rest arrow later, parts = value :: gap :: unit :: rest :: [arrow] :: later ∧
      Figure classes value gap unit rest ∧ isArrow arrow = true ∧
      List.Forall₂ (fun run part => run.fits part = true) more later := by
  simp only [List.forall₂_cons_left_iff, Run.fits_plus, Run.fits_star, Run.fits_single] at fitted
  obtain ⟨value, _, ⟨valueNe, numeral⟩, ⟨gap, _, gapSpace, ⟨unit, _, ⟨unitNe, solid⟩, ⟨rest, _,
    restSpace, ⟨_, later, ⟨arrow, rfl, isArrow⟩, others, rfl⟩, rfl⟩, rfl⟩, rfl⟩, rfl⟩ := fitted
  refine ⟨value, gap, unit, rest, arrow, later, rfl, ?_, isArrow, others⟩
  exact ⟨valueNe, numeral, gapSpace, unitNe, fun char member => by simpa using solid char member,
    restSpace⟩

theorem fits_of_figure {value gap unit rest : Text} {arrow : Char} {more : List Run}
    {later : List Text} (figure : Figure classes value gap unit rest)
    (marked : isArrow arrow = true)
    (others : List.Forall₂ (fun run part => run.fits part = true) more later) :
    List.Forall₂ (fun run part => run.fits part = true)
      (.plus classes.numeral :: .star classes.space :: .plus (fun char => !classes.space char) ::
        .star classes.space :: .single isArrow :: more)
      (value :: gap :: unit :: rest :: [arrow] :: later) := by
  refine .cons (Run.fits_plus.mpr ⟨figure.value_ne, figure.value_numeral⟩) ?_
  refine .cons (Run.fits_star.mpr figure.gap_space) ?_
  refine .cons (Run.fits_plus.mpr ⟨figure.unit_ne, fun char member => ?_⟩) ?_
  · rw [figure.unit_solid char member]
    rfl
  refine .cons (Run.fits_star.mpr figure.rest_space) ?_
  exact .cons (Run.fits_single.mpr ⟨arrow, rfl, marked⟩) others

/-- What a match of the pattern consists of. -/
theorem parts_of_isMatch {text : Text} {parts : List Text}
    (isMatch : Pattern.IsMatch (pattern classes) text parts) :
    ∃ value gap unit rest arrow tab value' gap' unit' rest' arrow' behind,
      parts = [value, gap, unit, rest, [arrow], tab, value', gap', unit', rest', [arrow']] ∧
        Figure classes value gap unit rest ∧ isArrow arrow = true ∧
        (∀ char ∈ tab, classes.space char = true) ∧ Figure classes value' gap' unit' rest' ∧
        isArrow arrow' = true ∧
        text = (value ++ (gap ++ (unit ++ rest))) ++
          arrow :: ((tab ++ (value' ++ (gap' ++ (unit' ++ rest')))) ++ arrow' :: behind) := by
  obtain ⟨fitted, behind, whole⟩ := isMatch
  obtain ⟨value, gap, unit, rest, arrow, later, rfl, figure, isArrow, second⟩ :=
    figure_of_fits fitted
  obtain ⟨tab, later, tabSpace, third, rfl⟩ := List.forall₂_cons_left_iff.mp second
  obtain ⟨value', gap', unit', rest', arrow', later, rfl, figure', isArrow', last⟩ :=
    figure_of_fits third
  cases last
  refine ⟨value, gap, unit, rest, arrow, tab, value', gap', unit', rest', arrow', behind, rfl,
    figure, isArrow, Run.fits_star.mp tabSpace, figure', isArrow', ?_⟩
  rw [← whole]
  simp

theorem countP_isArrow_eq_zero {text : Text} :
    List.countP isArrow text = 0 ↔ ∀ char ∈ text, isArrow char = false := by
  simp [List.countP_eq_zero]

/-- A text with two arrows is cut in one way at two arrows. -/
theorem cut_at_arrows {skipped front middle behind sent received : Text} {arrow arrow' : Char}
    (sentFree : ∀ char ∈ sent, isArrow char = false)
    (receivedFree : ∀ char ∈ received, isArrow char = false)
    (marked : isArrow arrow = true) (marked' : isArrow arrow' = true)
    (same : skipped ++ (front ++ arrow :: (middle ++ arrow' :: behind)) =
      sent ++ '↑' :: (received ++ ['↓'])) :
    skipped ++ front = sent ∧ middle = received := by
  -- there are as many arrows as the line has, so none is left for the texts in between
  have count := congrArg (List.countP isArrow) same
  have up : isArrow '↑' = true := rfl
  have down : isArrow '↓' = true := rfl
  rw [List.countP_append, List.countP_append, List.countP_cons_of_pos marked, List.countP_append,
    List.countP_cons_of_pos marked', List.countP_append, List.countP_cons_of_pos up,
    List.countP_append, List.countP_cons_of_pos down, List.countP_nil,
    countP_isArrow_eq_zero.mpr sentFree, countP_isArrow_eq_zero.mpr receivedFree] at count
  have frontFree : ∀ char ∈ skipped ++ front, isArrow char = false := by
    rw [← countP_isArrow_eq_zero, List.countP_append]
    omega
  have middleFree : ∀ char ∈ middle, isArrow char = false := by
    rw [← countP_isArrow_eq_zero]
    omega
  rw [← List.append_assoc] at same
  obtain ⟨frontSame, _, later⟩ := Pattern.append_cons_inj frontFree sentFree marked up same
  obtain ⟨middleSame, _⟩ := Pattern.append_cons_inj middleFree receivedFree marked' down later
  exact ⟨frontSame, middleSame⟩

end Line

namespace NotificationRuntime

variable (runtime : NotificationRuntime)

def Readable (rate : Long) : Prop :=
  ∀ char ∈ (runtime.formatFileSize rate).number, runtime.classes.numeral char = true

def figure (rate : Long) : Text :=
  (runtime.formatFileSize rate).number ++
    ' ' :: (runtime.formatFileSize rate).speedUnit runtime.language

theorem speedLine_eq (stats : TrafficStats) :
    runtime.speedLine stats = runtime.speedText stats.txRate ++
      '↑' :: (('\t' :: runtime.speedText stats.rxRate) ++ ['↓']) := rfl

/-- Wherever the pattern matches in the line, its second half is the received rate, and its first
half the end of the sent one. -/
theorem groups_of_isMatch {stats : TrafficStats} {skipped text : Text} {parts : List Text}
    (whole : skipped ++ text = runtime.speedLine stats)
    (isMatch : Pattern.IsMatch (pattern runtime.classes) text parts) :
    ∃ value gap unit rest, Figure runtime.classes value gap unit rest ∧
      skipped ++ (value ++ (gap ++ (unit ++ rest))) = runtime.speedText stats.txRate ∧
      runtime.Readable stats.rxRate ∧
      speedIntent parts = some
        { action := "com.beetle.chili.speed"
          extras := [("upload", runtime.figure stats.rxRate),
            ("download", value ++ ' ' :: unit)] } := by
  obtain ⟨value, gap, unit, rest, arrow, tab, value', gap', unit', rest', arrow', behind, rfl,
    figure, isArrow, tabSpace, figure', isArrow', rfl⟩ := parts_of_isMatch isMatch
  rw [runtime.speedLine_eq] at whole
  obtain ⟨front, middle⟩ := cut_at_arrows
    ((runtime.formatFileSize stats.txRate).not_arrow runtime.language) (by
      rw [List.forall_mem_cons]
      exact ⟨rfl, (runtime.formatFileSize stats.rxRate).not_arrow runtime.language⟩)
    isArrow isArrow' whole
  have received := (runtime.formatFileSize stats.rxRate).figure_behind_tab runtime.language
    tabSpace figure' middle
  obtain ⟨sameValue, sameUnit⟩ :=
    (runtime.formatFileSize stats.rxRate).figure_unique runtime.language figure' received
  subst sameValue sameUnit
  exact ⟨value, gap, unit, rest, figure, front, figure'.value_numeral, rfl⟩

/-- Nothing but the received rate is broadcast as the upload. -/
theorem upload_of_find {stats : TrafficStats} {intent : Intent}
    (sent : (Pattern.find (pattern runtime.classes) (runtime.speedLine stats)).bind speedIntent =
      some intent) :
    runtime.Readable stats.rxRate ∧
      intent.getStringExtra "upload" = some (runtime.figure stats.rxRate) := by
  obtain ⟨parts, found, groups⟩ := Option.bind_eq_some_iff.mp sent
  obtain ⟨skipped, text, whole, isMatch⟩ := Pattern.isMatch_of_find found
  obtain ⟨_, _, _, _, _, _, readable, same⟩ := runtime.groups_of_isMatch whole isMatch
  rw [same] at groups
  cases groups
  exact ⟨readable, rfl⟩

/-- The parts of the line match the pattern when it can read both numbers. -/
theorem isMatch_speedLine {stats : TrafficStats} (sent : runtime.Readable stats.txRate)
    (received : runtime.Readable stats.rxRate) :
    ∃ parts, Pattern.IsMatch (pattern runtime.classes) (runtime.speedLine stats) parts := by
  have up : isArrow '↑' = true := rfl
  have down : isArrow '↓' = true := rfl
  have tab : (Run.star runtime.classes.space).fits ['\t'] = true :=
    Run.fits_star.mpr (List.forall_mem_singleton.mpr runtime.classes.tab)
  have front := (runtime.formatFileSize stats.txRate).figure_self runtime.language sent
  have back := (runtime.formatFileSize stats.rxRate).figure_self runtime.language received
  refine ⟨_, fits_of_figure front up (.cons tab (fits_of_figure back down .nil)), [], ?_⟩
  rw [runtime.speedLine_eq, speedText, speedText, FileSize.speed_text, FileSize.speed_text]
  simp

/-- What is broadcast when the pattern can read both numbers. -/
theorem find_speedLine {stats : TrafficStats} (sent : runtime.Readable stats.txRate)
    (received : runtime.Readable stats.rxRate) :
    (Pattern.find (pattern runtime.classes) (runtime.speedLine stats)).bind speedIntent = some
      { action := "com.beetle.chili.speed"
        extras := [("upload", runtime.figure stats.rxRate),
          ("download", runtime.figure stats.txRate)] } := by
  obtain ⟨_, exists'⟩ := runtime.isMatch_speedLine sent received
  obtain ⟨parts, found, isMatch⟩ := Pattern.find_of_isMatch exists'
  obtain ⟨value, gap, unit, rest, figure, whole, _, same⟩ :=
    runtime.groups_of_isMatch (List.nil_append _) isMatch
  obtain ⟨rfl, rfl⟩ :=
    (runtime.formatFileSize stats.txRate).figure_unique runtime.language figure whole
  rw [found, Option.bind_some, same]
  rfl

/-- Figures are equal only with equal numbers and units. -/
theorem figure_inj {first second : Long} (same : runtime.figure first = runtime.figure second) :
    (runtime.formatFileSize first).number = (runtime.formatFileSize second).number ∧
      (runtime.formatFileSize first).speedUnit runtime.language =
        (runtime.formatFileSize second).speedUnit runtime.language := by
  obtain ⟨numbers, _, units⟩ := Pattern.append_cons_inj
    (fun char member => ((runtime.formatFileSize first).number_plain char member).1)
    (fun char member => ((runtime.formatFileSize second).number_plain char member).1)
    runtime.classes.blank runtime.classes.blank same
  exact ⟨numbers, units⟩

/-- The broadcast carries the received rate as the download and the sent rate as the upload, and
the screen shows them so. -/
def ShowsRates (stats : TrafficStats) (view : SpeedView) : Prop :=
  ∃ update intent, runtime.trafficUpdated 0 stats = some update ∧ update.broadcast = some intent ∧
    intent.getStringExtra "download" = some (runtime.figure stats.rxRate) ∧
    intent.getStringExtra "upload" = some (runtime.figure stats.txRate) ∧
    view.after update.broadcast =
      ⟨runtime.figure stats.rxRate, runtime.figure stats.txRate⟩

/-- **Labels of the speed figures.** They are right exactly when both rates are formatted as the
same number, in digits and points, with the same unit. -/
theorem showsRates_iff (stats : TrafficStats) (view : SpeedView) :
    runtime.ShowsRates stats view ↔
      (runtime.formatFileSize stats.txRate).number =
          (runtime.formatFileSize stats.rxRate).number ∧
        (runtime.formatFileSize stats.txRate).unit = (runtime.formatFileSize stats.rxRate).unit ∧
        runtime.Readable stats.rxRate := by
  constructor
  · rintro ⟨update, intent, updated, broadcast, _, upload, _⟩
    cases updated
    obtain ⟨readable, carried⟩ := runtime.upload_of_find broadcast
    rw [upload] at carried
    obtain ⟨numbers, units⟩ := runtime.figure_inj (Option.some.inj carried)
    exact ⟨numbers, List.append_cancel_right units, readable⟩
  · rintro ⟨numbers, units, readable⟩
    have sent : runtime.Readable stats.txRate := by
      rw [Readable, numbers]
      exact readable
    have figures : runtime.figure stats.txRate = runtime.figure stats.rxRate := by
      rw [figure, figure, numbers, FileSize.speedUnit, FileSize.speedUnit, units]
    have found := runtime.find_speedLine sent readable
    rw [figures] at found
    refine ⟨_, _, rfl, found, ?_, ?_, ?_⟩
    · rfl
    · rw [figures]
      rfl
    · rw [figures]
      exact congrArg view.after found

end NotificationRuntime

/-! ## A plain platform -/

def asciiClasses : CharClasses where
  digit := Char.isDigit
  space := fun char => char == ' ' || char == '\t'
  tab := rfl
  blank := rfl
  point := rfl
  slash := rfl
  latin := rfl
  cyrillic := rfl
  arrow := by
    intro char arrow
    simp only [isArrow, Bool.or_eq_true, beq_iff_eq] at arrow
    rcases arrow with rfl | rfl <;> rfl
  digit_solid := by
    intro char digit
    rw [Bool.or_eq_false_iff, beq_eq_false_iff_ne, beq_eq_false_iff_ne]
    constructor
    · rintro rfl
      cases digit
    · rintro rfl
      cases digit

theorem asciiClasses_plain {char : Char} (digit : char.isDigit = true) :
    asciiClasses.Plain char := by
  refine ⟨asciiClasses.digit_solid char digit, ?_⟩
  rw [isArrow, Bool.or_eq_false_iff, beq_eq_false_iff_ne, beq_eq_false_iff_ne]
  constructor
  · rintro rfl
    cases digit
  · rintro rfl
    cases digit

def plainSize (size : Long) : FileSize asciiClasses where
  number := Nat.toDigits 10 size.toNat
  gap := [' ']
  unit := ['B']
  number_ne := Nat.toDigits_ne_nil
  number_plain := fun _ member =>
    asciiClasses_plain (Nat.isDigit_of_mem_toDigits (by decide) (by decide) member)
  gap_ne := List.cons_ne_nil _ _
  gap_space := List.forall_mem_singleton.mpr rfl
  unit_plain := List.forall_mem_singleton.mpr ⟨rfl, rfl⟩

def plainNotification : NotificationRuntime where
  classes := asciiClasses
  language := .english
  formatFileSize := plainSize

/-- One byte a second is sent and two are received. The screen has them the other way round. -/
theorem not_showsRates_plain :
    SpeedView.after ⟨['0'], ['0']⟩
        ((plainNotification.trafficUpdated 0 { txRate := 1, rxRate := 2 }).bind (·.broadcast)) =
        ⟨['1', ' ', 'B', '/', 's'], ['2', ' ', 'B', '/', 's']⟩ ∧
      ¬ plainNotification.ShowsRates { txRate := 1, rxRate := 2 } ⟨['0'], ['0']⟩ := by
  have shown : SpeedView.after ⟨['0'], ['0']⟩
      ((plainNotification.trafficUpdated 0 { txRate := 1, rxRate := 2 }).bind (·.broadcast)) =
      ⟨['1', ' ', 'B', '/', 's'], ['2', ' ', 'B', '/', 's']⟩ := by decide +kernel
  refine ⟨shown, ?_⟩
  rintro ⟨update, intent, updated, _, _, _, screen⟩
  rw [updated, Option.bind_some, screen] at shown
  have other : plainNotification.figure 2 ≠ ['1', ' ', 'B', '/', 's'] := by decide
  exact other (congrArg SpeedView.tvDownValue shown)

end AlienConnection.Ui
