import EmojiPicker.Catalog

/-!
# The built-in catalog

Ten categories with a representative set of keys each, in use where no other catalog is given.
-/

namespace EmojiPicker
namespace Catalog

def builtin : Catalog where
  categories := [
    ⟨⟨1⟩, "smileys_emotion", [
        "😀", "😃", "😄", "😁", "😆", "😅", "🤣", "😂", "🙂", "🙃", "😉", "😊", "😇", "🥰", "😍", "🤩",
        "😘", "😗", "😋", "😛", "😜", "🤪", "😝", "🤑", "🤗", "🤭", "🤫", "🤔", "🤐", "🤨", "😐", "😑",
        "😶", "😏", "😒", "🙄", "😬", "😌", "😔", "😪", "🤤", "😴", "😷", "🤒", "🤕", "🤢", "🤮", "🥵",
        "🥶", "😎", "🤓", "😕", "😟", "😮", "😲", "😳", "🥺", "😢", "😭", "😱", "😡", "😠", "🤬", "💀",
        "💩", "🤡", "👻", "👽", "🤖", "❤️"]⟩,
    ⟨⟨2⟩, "people_body", [
        "👋", "🤚", "✋", "🖖", "👌", "🤌", "✌️", "🤞", "🤟", "🤘", "🤙", "👈", "👉", "👆", "👇", "👍",
        "👎", "✊", "👊", "👏", "🙌", "👐", "🙏", "💪", "👀", "👶", "🧒", "👦", "👧", "🧑", "👨", "👩",
        "🧓", "👴", "👵", "🙋", "🤷", "🤦", "💃", "🕺"]⟩,
    ⟨⟨3⟩, "animals_nature", [
        "🐶", "🐱", "🐭", "🐹", "🐰", "🦊", "🐻", "🐼", "🐨", "🐯", "🦁", "🐮", "🐷", "🐸", "🐵", "🐔",
        "🐧", "🐦", "🦆", "🦉", "🐺", "🐴", "🦄", "🐝", "🦋", "🐢", "🐍", "🐙", "🐬", "🐳", "🌵", "🌲",
        "🌴", "🌱", "🍀", "🍁", "🌸", "🌹", "🌻", "🌞", "🌙", "⭐"]⟩,
    ⟨⟨4⟩, "food_drink", [
        "🍏", "🍎", "🍐", "🍊", "🍋", "🍌", "🍉", "🍇", "🍓", "🍒", "🍑", "🥭", "🍍", "🥥", "🥝", "🍅",
        "🥑", "🥦", "🌽", "🥕", "🍞", "🧀", "🍳", "🥓", "🍔", "🍟", "🍕", "🌭", "🌮", "🍣", "🍜", "🍩",
        "🍪", "🎂", "🍫", "☕", "🍵", "🍺", "🍷", "🥤"]⟩,
    ⟨⟨5⟩, "travel_places", [
        "🚗", "🚕", "🚌", "🏎️", "🚓", "🚑", "🚒", "🚲", "🛵", "🚂", "✈️", "🚀", "🛸", "🚁", "⛵", "🚢",
        "🏠", "🏢", "🏰", "🗼", "🗽", "⛲", "🌋", "🏝️", "🌈"]⟩,
    ⟨⟨6⟩, "activities", [
        "⚽", "🏀", "🏈", "⚾", "🎾", "🏐", "🏉", "🎱", "🏓", "🏸", "🥊", "⛳", "🎣", "🎽", "🎿", "🏆",
        "🥇", "🎮", "🎲", "🧩", "🎨", "🎭", "🎤", "🎧", "🎸", "🎹", "🎉", "🎁"]⟩,
    ⟨⟨7⟩, "objects", [
        "⌚", "📱", "💻", "⌨️", "🖥️", "🖨️", "📷", "🎥", "📺", "📻", "⏰", "🔋", "🔌", "💡", "🔦", "💰",
        "💳", "🔧", "🔨", "🔑", "🔒", "📦", "✉️", "📎", "✂️", "📌", "📚", "✏️"]⟩,
    ⟨⟨8⟩, "symbols", [
        "🧡", "💛", "💚", "💙", "💜", "🖤", "💔", "💯", "✅", "❌", "❓", "❗", "⚠️", "🚫", "♻️", "🔴",
        "🟢", "🔵", "⬆️", "⬇️", "➡️", "⬅️", "🔁", "➕", "➖", "✔️", "©️", "®️"]⟩,
    ⟨⟨9⟩, "flags", [
        "🏁", "🚩", "🏳️", "🏴", "🏳️‍🌈", "🇩🇪", "🇫🇷", "🇬🇧", "🇺🇸", "🇯🇵", "🇮🇹", "🇪🇸", "🇧🇷", "🇮🇳"]⟩,
    ⟨⟨10⟩, "emoticons", [
        ":-)", ";-)", ":-(", ":-D", ":-P", ":-O", ":-*", ":'(", "<3", "¯\\_(ツ)_/¯",
        "(╯°□°）╯︵ ┻━┻"]⟩
  ]

theorem fault?_builtin : builtin.fault? = none := by
  decide +kernel

end Catalog
end EmojiPicker
