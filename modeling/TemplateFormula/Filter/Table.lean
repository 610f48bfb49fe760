import TemplateFormula.Filter.Condition
import TemplateFormula.Filter.Date
import TemplateFormula.Filter.Number
import TemplateFormula.Filter.Text

/-!
# The built-in filters
-/

namespace TemplateFormula.Filter

def builtin : FilterTable :=
  [("html", html), ("raw", raw), ("json", json), ("toJson", toJson), ("toInt", toInt),
   ("toFloat", toFloat), ("now", now), ("toDate", toDate), ("fromNow", fromNow),
   ("dateModify", dateModify), ("date", date), ("number", number), ("trim", trim),
   ("percent", percent), ("bytes", bytes), ("round", round), ("truncate", truncate),
   ("url_encode", urlEncode), ("url_decode", urlDecode), ("default", default), ("join", join),
   ("split", split), ("sortBy", sortBy), ("objectToArray", objectToArray), ("unique", unique),
   ("first", first), ("nth", nth), ("last", last), ("plus", step (· + ·)),
   ("minus", step (· - ·)), ("times", step (· * ·)), ("division", step (· / ·)),
   ("count", count), ("sum", sum), ("abs", abs), ("pick", pick),
   ("pick_if_exist", pickIfExist), ("str2date", textToDate), ("asArray", asArray),
   ("concat", concat), ("filter", filter), ("base64Encode", base64Encode),
   ("base64Decode", base64Decode), ("lowerCase", lowerCase), ("upperCase", upperCase),
   ("isTrue", isTrue), ("isFalse", isFalse), ("isMatch", matching false),
   ("notMatch", matching true), ("isEquals", equals false), ("notEquals", equals true),
   ("map", map)]

end TemplateFormula.Filter
