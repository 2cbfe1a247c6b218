import TagText.Catalog.DefaultGroups

/-!
The modifiers that come with the library, by category: for texts, numbers and dates, and those
that test a value or choose between texts.
-/

namespace TagText.Default

/-- The currency that a number is written in. -/
def currency : Param :=
  choiceParam "currency" "Currency" "USD" "default"
    ["USD", "EUR", "GBP", "JPY", "CAD", "AUD", "CHF", "CNY", "INR"]

/-- The form that a date is written in. -/
def dateFormat : Param :=
  choiceParam "format" "Date format" "Y-m-d" "Y-m-d"
    ["F j, Y", "M j, Y", "d/m/Y", "m/d/Y", "l, F j, Y", "relative", "H:i:s", "Y-m-d H:i:s"]

/-- Modifiers of texts. -/
def textModifiers : List Modifier :=
  [{ key := "append".toList
     label := "Append text".toList
     accepted := [.text, .number, .date]
     params := [optionalText "text" "Text to append"]
     category := "text".toList },
   { key := "prepend".toList
     label := "Prepend text".toList
     accepted := [.text, .number, .date]
     params := [optionalText "text" "Text to prepend"]
     category := "text".toList },
   { key := "capitalize".toList
     label := "Capitalize".toList
     accepted := [.text]
     category := "text".toList },
   { key := "fallback".toList
     label := "Fallback".toList
     output := none
     params := [textParam "text" "Fallback text" false (.text []) "Value to use if empty"]
     category := "text".toList },
   { key := "truncate".toList
     label := "Truncate text".toList
     accepted := [.text]
     params := [numberParam "length" "Max length" 50]
     category := "text".toList },
   { key := "replace".toList
     label := "Replace text".toList
     accepted := [.text]
     params :=
      [textParam "search" "Search" true .nothing "Text to search for",
       optionalText "replace" "Replace with"]
     category := "text".toList }]

/-- Modifiers of numbers. -/
def numberModifiers : List Modifier :=
  [{ key := "currency_format".toList
     label := "Currency format".toList
     accepted := [.number]
     params := [currency, booleanParam "in_cents" "Amount is in cents"]
     category := "number".toList },
   { key := "number_format".toList
     label := "Number format".toList
     accepted := [.number]
     params := [numberParam "decimals" "Decimals" 0]
     category := "number".toList },
   { key := "round".toList
     label := "Round number".toList
     accepted := [.number]
     output := some .number
     params := [numberParam "decimals" "Decimals" 0]
     category := "number".toList },
   { key := "abbreviate".toList
     label := "Abbreviate number".toList
     accepted := [.number]
     category := "number".toList }]

/-- Modifiers of dates. -/
def dateModifiers : List Modifier :=
  [{ key := "date_format".toList
     label := "Date format".toList
     accepted := [.date]
     params := [dateFormat]
     category := "date".toList },
   { key := "time_diff".toList
     label := "Time diff".toList
     accepted := [.date]
     params := [optionalText "timezone" "Timezone to compare against"]
     category := "date".toList },
   { key := "to_age".toList
     label := "Get age".toList
     accepted := [.date]
     output := some .number
     category := "date".toList }]

/-- Tests of a value, and the choices that follow a test. -/
def controlModifiers : List Modifier :=
  [{ key := "is_empty".toList
     label := "Is empty".toList
     output := some .boolean
     category := "control".toList },
   { key := "is_not_empty".toList
     label := "Is not empty".toList
     output := some .boolean
     category := "control".toList },
   { key := "is_equal_to".toList
     label := "Is equal to".toList
     output := some .boolean
     params := [optionalText "value" "Value"]
     category := "control".toList },
   { key := "is_not_equal_to".toList
     label := "Is not equal to".toList
     output := some .boolean
     params := [optionalText "value" "Value"]
     category := "control".toList },
   { key := "is_greater_than".toList
     label := "Is greater than".toList
     accepted := [.number, .date]
     output := some .boolean
     params := [optionalText "value" "Value", choiceParam "mode" "Mode" "" "" [">="]]
     category := "control".toList },
   { key := "is_less_than".toList
     label := "Is less than".toList
     accepted := [.number, .date]
     output := some .boolean
     params := [optionalText "value" "Value", choiceParam "mode" "Mode" "" "" ["<="]]
     category := "control".toList },
   { key := "is_between".toList
     label := "Is between".toList
     accepted := [.number, .date]
     output := some .boolean
     params := [requiredText "start" "Start", requiredText "end" "End"]
     category := "control".toList },
   { key := "is_checked".toList
     label := "Is checked".toList
     accepted := [.boolean]
     output := some .boolean
     category := "control".toList },
   { key := "is_unchecked".toList
     label := "Is unchecked".toList
     accepted := [.boolean]
     output := some .boolean
     category := "control".toList },
   { key := "contains".toList
     label := "Contains".toList
     accepted := [.text, .list]
     output := some .boolean
     params := [optionalText "value" "Value"]
     category := "control".toList },
   { key := "does_not_contain".toList
     label := "Does not contain".toList
     accepted := [.text, .list]
     output := some .boolean
     params := [optionalText "value" "Value"]
     category := "control".toList },
   { key := "then".toList
     label := "Then".toList
     accepted := [.boolean]
     params := [optionalText "content" "Content"]
     category := "control".toList },
   { key := "else".toList
     label := "Else".toList
     accepted := [.boolean, .text]
     params := [optionalText "content" "Content"]
     category := "control".toList }]

/-- The built-in modifiers. -/
def modifiers : List Modifier :=
  textModifiers ++ numberModifiers ++ dateModifiers ++ controlModifiers

/-- The built-in catalog. -/
def catalog : Catalog where
  groups := groups
  modifiers := modifiers

end TagText.Default
