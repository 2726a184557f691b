import SecureShare.Delivery.Model

/-!
# The public experience

The one row of `application_settings`: the language of the recipient page.
-/
namespace SecureShare.PublicExperience
open Go
open Delivery (UUID)

inductive Locale where
  | english | persian
  deriving DecidableEq, Repr

def Locale.text : Locale → Text
  | .english => "en".toList
  | .persian => "fa".toList

structure Settings where
  publicLocale : Locale
  updatedBy : Option UUID
  deriving DecidableEq, Repr

/-- `ValidLocale`, with the locale that the text names. -/
def validLocale (locale : Text) : Option Locale :=
  if locale = Locale.english.text then some .english
  else if locale = Locale.persian.text then some .persian
  else none

def defaultSettings : Settings := ⟨.english, none⟩

end SecureShare.PublicExperience
