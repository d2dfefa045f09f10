import KeepAlive.Json.Value
import KeepAlive.Login.Field
import KeepAlive.Text.Quoted

/-!
# Showing credentials

Whoever shows credentials in a log gets the name of the user, and never the password.
-/

namespace KeepAlive.Credentials

/-- What is shown in place of a password. -/
def redacted : String :=
  "<redacted>"

/-- The credentials in one line. -/
def shown (credentials : Credentials) : String :=
  "Credentials \x7b username: " ++ Text.quoted credentials.username ++ ", password: " ++
    Text.quoted redacted ++ " \x7d"

/-- The credentials on lines of their own. -/
def shownInLines (credentials : Credentials) : String :=
  "Credentials \x7b\n    username: " ++ Text.quoted credentials.username ++
    ",\n    password: " ++ Text.quoted redacted ++ ",\n\x7d"

/-- No two passwords are told apart by what is shown. -/
theorem shown_eq_of_username {a b : Credentials} (h : a.username = b.username) :
    a.shown = b.shown ∧ a.shownInLines = b.shownInLines :=
  ⟨by unfold shown; rw [h], by unfold shownInLines; rw [h]⟩

/-- The credentials as a value, for those who are to have them. -/
def toJson (credentials : Credentials) : Json :=
  .object [("username", .text credentials.username), ("password", .text credentials.password)]

end KeepAlive.Credentials
